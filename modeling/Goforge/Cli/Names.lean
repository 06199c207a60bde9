import Goforge.Lib.GoString

set_option autoImplicit false

namespace Goforge.Cli

open GoString

def isUpper (b : UInt8) : Bool := within (byte 'A') (byte 'Z') b

def isLower (b : UInt8) : Bool := within (byte 'a') (byte 'z') b

def isAlphanumeric (b : UInt8) : Bool := isUpper b || isLower b || isDigit b

-- strings.Fields of nonIdentifier.ReplaceAllString(value, " "): what lies between
-- the characters that are no ASCII letters or digits.
def runsFrom (run : Bytes) : Bytes → List Bytes
  | [] => closed run
  | b :: rest => if isAlphanumeric b then runsFrom (run ++ [b]) rest else closed run ++ runsFrom [] rest

-- The loop over the runes of one field, with the rune before and the word so far.
def pieces (previous : Option UInt8) (current : Bytes) : Bytes → List Bytes
  | [] => closed current
  | r :: rest =>
    if previous.any (fun p => isUpper r && (!isUpper p || rest.head?.any isLower)) then
      current :: pieces (some r) [r] rest
    else pieces (some r) (current ++ [r]) rest

def words (value : Bytes) : List Bytes :=
  (runsFrom [] value).flatMap (fun field => (pieces none [] field).map toLower)

def commonInitialisms : List Bytes :=
  ["API", "CPU", "CSS", "DNS", "EOF", "GUID", "HTML", "HTTP", "HTTPS", "ID", "IP", "JSON", "QPS", "RAM", "RPC", "SLA",
    "SMTP", "SQL", "SSH", "TCP", "TLS", "TTL", "UDP", "UI", "UID", "UUID", "URI", "URL", "UTF8", "VM", "XML", "XSRF",
    "XSS"].map ascii

def pascalWord (part : Bytes) : Bytes :=
  if toUpper part ∈ commonInitialisms then toUpper part else toUpper (part.take 1) ++ part.drop 1

structure EmptyName where
  value : Bytes
deriving DecidableEq

def snake (value : Bytes) : Except EmptyName Bytes :=
  if words value = [] then .error ⟨value⟩ else .ok (join (ascii "_") (words value))

def pascal (value : Bytes) : Except EmptyName Bytes :=
  if words value = [] then .error ⟨value⟩ else .ok ((words value).map pascalWord).flatten

example : pascal (ascii "user-HTTPRequest id") = .ok (ascii "UserHTTPRequestID") := by decide

-- strings.TrimSuffix
def trimSuffix (ending value : Bytes) : Bytes :=
  if ending.isSuffixOf value then value.take (value.length - ending.length) else value

def keywords : List Bytes :=
  ["break", "case", "chan", "const", "continue", "default", "defer", "else", "fallthrough", "for", "func", "go", "goto",
    "if", "import", "interface", "map", "package", "range", "return", "select", "struct", "switch", "type",
    "var"].map ascii

-- token.IsIdentifier and ast.IsExported on ASCII letters and digits.
def isIdentifier (name : Bytes) : Bool :=
  decide (name ∉ keywords) && name.all isAlphanumeric && name.head?.any (fun b => !isDigit b)

def isExported (name : Bytes) : Bool := name.head?.any isUpper

theorem runs_alphanumeric (value : Bytes) : ∀ run, run.all isAlphanumeric = true →
    ∀ field ∈ runsFrom run value, field.all isAlphanumeric = true ∧ field ≠ [] := by
  have ends : ∀ run, run.all isAlphanumeric = true → ∀ field ∈ closed run, field.all isAlphanumeric = true ∧
      field ≠ [] := by
    intro run all field member
    rw [closed] at member
    split at member
    · cases member
    rename_i nonempty
    cases List.mem_singleton.mp member
    exact ⟨all, nonempty⟩
  induction value with
  | nil => exact ends
  | cons b rest ih =>
    intro run all field member
    rw [runsFrom] at member
    split at member
    · rename_i here
      exact ih _ (by simp [all, here]) field member
    · rcases List.mem_append.mp member with first | later
      · exact ends run all field first
      · exact ih [] rfl field later

theorem pieces_flatten (text : Bytes) :
    ∀ previous current, (pieces previous current text).flatten = current ++ text := by
  induction text with
  | nil =>
    intro previous current
    rw [pieces, closed]
    split <;> simp_all
  | cons r rest ih =>
    intro previous current
    rw [pieces]
    split
    · rw [List.flatten_cons, ih]
      rfl
    · rw [ih, List.append_assoc]
      rfl

theorem words_plain (value : Bytes) : ∀ word ∈ words value, ∀ b ∈ word, isLower b = true ∨ isDigit b = true := by
  intro word member b inside
  obtain ⟨field, found, mapped⟩ := List.mem_flatMap.mp member
  obtain ⟨piece, part, rfl⟩ := List.mem_map.mp mapped
  obtain ⟨c, own, rfl⟩ := List.mem_map.mp inside
  have whole : c ∈ field := by
    have flat := pieces_flatten field none []
    rw [List.nil_append] at flat
    exact flat ▸ List.mem_flatten.mpr ⟨piece, part, own⟩
  have plain := List.all_eq_true.mp (runs_alphanumeric value [] rfl field found).1 c whole
  simp only [isAlphanumeric, isUpper, isLower, isDigit, lowerByte, Bool.or_eq_true] at plain ⊢
  split
  · rename_i upper
    left
    rw [within_range] at upper ⊢
    rw [UInt8.toNat_add]
    change 65 ≤ c.toNat ∧ c.toNat ≤ 90 at upper
    change 97 ≤ (c.toNat + 32) % 256 ∧ (c.toNat + 32) % 256 ≤ 122
    omega
  · rename_i other
    simpa [other] using plain

theorem runs_append {word : Bytes} (plain : word.all isAlphanumeric = true) : ∀ run rest,
    runsFrom run (word ++ rest) = runsFrom (run ++ word) rest := by
  induction word with
  | nil => simp
  | cons b word ih =>
    intro run rest
    obtain ⟨first, others⟩ := Bool.and_eq_true_iff.mp plain
    rw [List.cons_append, runsFrom, if_pos first, ih others, List.append_assoc, List.singleton_append]

theorem runs_join (parts : List Bytes) (plain : ∀ part ∈ parts, part.all isAlphanumeric = true ∧ part ≠ []) :
    runsFrom [] (join (ascii "_") parts) = parts := by
  induction parts with
  | nil => rfl
  | cons part rest ih =>
    obtain ⟨⟨here, some⟩, others⟩ := List.forall_mem_cons.mp plain
    rw [join_cons, runs_append here, List.nil_append]
    by_cases last : rest = []
    · rw [if_pos last, last, runsFrom, closed, if_neg some]
    · rw [if_neg last, show ascii "_" = [byte '_'] from rfl, List.singleton_append, runsFrom,
        if_neg (by decide), closed,
        if_neg some, show [byte '_'] = ascii "_" from rfl, ih others, List.singleton_append]

theorem pieces_plain (text : Bytes) (plain : ∀ b ∈ text, isUpper b = false) : ∀ previous current,
    pieces previous current text = closed (current ++ text) := by
  induction text with
  | nil => simp [pieces]
  | cons r rest ih =>
    intro previous current
    obtain ⟨first, others⟩ := List.forall_mem_cons.mp plain
    have inside : previous.any (fun p => isUpper r && (!isUpper p || rest.head?.any isLower)) = false := by
      cases previous <;> simp [first]
    rw [pieces, inside, if_neg Bool.false_ne_true, ih others, List.append_assoc, List.singleton_append]

theorem pieces_nonempty (text : Bytes) : ∀ previous current, (previous ≠ none → current ≠ []) →
    ∀ piece ∈ pieces previous current text, piece ≠ [] := by
  induction text with
  | nil =>
    intro previous current _ piece member
    rw [pieces, closed] at member
    split at member <;> simp_all
  | cons r rest ih =>
    intro previous current begun piece member
    rw [pieces] at member
    split at member
    · rename_i boundary
      rcases List.mem_cons.mp member with rfl | later
      · exact begun (by rintro rfl; simp at boundary)
      · exact ih _ _ (by simp) piece later
    · exact ih _ _ (by simp) piece member

theorem words_nonempty (value : Bytes) : ∀ word ∈ words value, word ≠ [] := by
  intro word member
  obtain ⟨field, _, mapped⟩ := List.mem_flatMap.mp member
  obtain ⟨piece, part, rfl⟩ := List.mem_map.mp mapped
  simpa [toLower] using pieces_nonempty field none [] (by simp) piece part

theorem plain_byte {b : UInt8} (plain : isLower b = true ∨ isDigit b = true) :
    isAlphanumeric b = true ∧ isUpper b = false ∧ lowerByte b = b := by
  have capital : isUpper b = false := by
    rw [Bool.eq_false_iff]
    intro upper
    rw [isUpper, within_range] at upper
    simp only [isLower, isDigit, within_range] at plain
    change 65 ≤ b.toNat ∧ b.toNat ≤ 90 at upper
    change (97 ≤ b.toNat ∧ _) ∨ (_ ∧ b.toNat ≤ 57) at plain
    omega
  refine ⟨by rcases plain with low | digit <;> simp [isAlphanumeric, *], capital, ?_⟩
  rw [lowerByte, show within (byte 'A') (byte 'Z') b = false from capital]
  rfl

-- The words of a name can be read back from its file name.
theorem snake_keeps_words (value file : Bytes) (named : snake value = .ok file) :
    words file = words value ∧ snake file = .ok file ∧ pascal file = pascal value := by
  have plain := fun word member b inside => plain_byte (words_plain value word member b inside)
  obtain ⟨some, joined⟩ : words value ≠ [] ∧ join (ascii "_") (words value) = file := by
    rw [snake] at named
    split at named
    · cases named
    rename_i some
    exact ⟨some, Except.ok.inj named⟩
  have own : ∀ word ∈ words value, (pieces none [] word).map toLower = [word] := by
    intro word member
    have lower : toLower word = word := by
      rw [toLower, List.map_congr_left (fun b inside => (plain word member b inside).2.2), List.map_id']
    rw [pieces_plain word (fun b inside => (plain word member b inside).2.1), List.nil_append, closed,
      if_neg (words_nonempty value word member), List.map_singleton, lower]
  have same : words file = words value := by
    have fields := runs_join (words value) (fun word member =>
      ⟨List.all_eq_true.mpr (fun b inside => (plain word member b inside).1), words_nonempty value word member⟩)
    rw [← joined, words, fields, List.flatMap_def, List.map_congr_left own, ← List.flatMap_def, List.flatMap_singleton']
  refine ⟨same, ?_, ?_⟩
  · rw [snake, same, if_neg some, joined]
  · rw [pascal, pascal, same, if_neg some, if_neg some]

theorem snake_keeps_words_request : snake (ascii "HTTPRequest id") = .ok (ascii "http_request_id") ∧
    words (ascii "http_request_id") = words (ascii "HTTPRequest id") :=
  ⟨by decide, (snake_keeps_words _ (ascii "http_request_id") (by decide)).1⟩

end Goforge.Cli
