import Goforge.Lib.QuotedPrintable

set_option autoImplicit false

namespace Rfc5322

open GoString QuotedPrintable Mime

abbrev Field := Bytes × Bytes

def fieldLine (field : Field) : Bytes := field.1 ++ ascii ": " ++ field.2

def fieldLines (fields : List Field) : Bytes := fields.flatMap (fun field => fieldLine field ++ crlf)

def Unbroken (text : Bytes) : Prop := ∀ b ∈ text, b ≠ cr ∧ b ≠ lf

instance (text : Bytes) : Decidable (Unbroken text) := List.decidableBAll _ text

theorem unbroken_append (left : Bytes) {right : Bytes} (first : Unbroken left) (second : Unbroken right) :
    Unbroken (left ++ right) := by
  intro b member
  rcases List.mem_append.mp member with inside | inside
  · exact first b inside
  · exact second b inside

theorem unbroken_flat_map {α : Type} {items : List α} {f : α → Bytes} (each : ∀ item ∈ items, Unbroken (f item)) :
    Unbroken (items.flatMap f) := by
  intro b member
  obtain ⟨item, inside, found⟩ := List.mem_flatMap.mp member
  exact each item inside b found

theorem unbroken_join {separator : Bytes} {parts : List Bytes} (between : Unbroken separator)
    (each : ∀ part ∈ parts, Unbroken part) : Unbroken (join separator parts) := by
  induction parts with
  | nil => exact fun b member => absurd member List.not_mem_nil
  | cons first rest ih =>
    rw [join_cons]
    refine unbroken_append _ (each first List.mem_cons_self) ?_
    split
    · exact fun b member => absurd member List.not_mem_nil
    · exact unbroken_append _ between (ih (fun part inside => each part (List.mem_cons_of_mem first inside)))

variable {text charset delimiter : Bytes}

theorem unbroken_printable (printable : ∀ b ∈ text, 0x20 ≤ b.toNat) : Unbroken text := by
  intro b member
  have low := printable b member
  refine ⟨?_, ?_⟩ <;>
  · rintro rfl
    exact absurd low (by decide)

theorem q_encode_unbroken (name : Unbroken charset) (unbroken : Unbroken text) : Unbroken (qEncode charset text) := by
  by_cases needed : needsEncoding text = true
  · have words : ∀ content, Unbroken (word charset content) := by
      intro content
      refine unbroken_append _ (unbroken_append _ (unbroken_append _ (unbroken_append _ (by decide) name)
        (by decide)) (unbroken_flat_map (fun b _ => ?_))) (by decide)
      exact unbroken_printable (fun c member => Nat.le_of_lt (q_byte_spelled b c member).2.1)
    obtain ⟨first, rest, _, encoded⟩ := q_encoded charset needed
    rw [encoded]
    exact unbroken_append _ (words first)
      (unbroken_flat_map (fun content _ => unbroken_append _ (by decide) (words content)))
  · rw [qEncode, if_neg needed]
    exact unbroken

theorem encode_padded_unbroken (bytes : Bytes) : Unbroken (encodePadded bytes) := by
  refine unbroken_append _ (fun b member => ?_) (fun b member => ?_)
  · have plain := Base64.encode_std_plain bytes b member
    exact ⟨plain.2.2, plain.2.1⟩
  · rw [List.eq_of_mem_replicate member]
    decide

theorem b_encode_from_unbroken (text : Bytes) (name : Unbroken charset) : ∀ skip filled,
    Unbroken (bEncodeFrom charset skip filled text) := by
  induction text with
  | nil => exact fun _ filled => encode_padded_unbroken filled
  | cons b rest ih =>
    intro skip filled
    cases skip with
    | succ left => exact ih left _
    | zero =>
      simp only [bEncodeFrom]
      split
      · refine unbroken_append _ (unbroken_append _ (encode_padded_unbroken filled) ?_) (ih _ _)
        exact unbroken_append _ (by decide) (unbroken_append _ (unbroken_append _ (by decide) name) (by decide))
      · exact ih _ _

theorem b_encode_unbroken (name : Unbroken charset) (unbroken : Unbroken text) : Unbroken (bEncode charset text) := by
  rw [bEncode]
  split
  · refine unbroken_append _ (unbroken_append _ (unbroken_append _ (unbroken_append _ (by decide) name)
      (by decide)) ?_) (by decide)
    rw [bContent]
    split
    · exact encode_padded_unbroken text
    · exact b_encode_from_unbroken text name 0 []
  · exact unbroken

def cutLine (text : Bytes) : Option (Bytes × Bytes) :=
  (index crlf text).map (fun stop => (text.take stop, text.drop (stop + 2)))

def readField (line : Bytes) : Option Field :=
  (cut (byte ':') line).map (fun parts => (parts.1, trimPrefix (ascii " ") parts.2))

def readHeader : Nat → Bytes → Option (List Field × Bytes)
  | 0, _ => none
  | fuel + 1, text =>
    match cutLine text with
    | none => none
    | some ([], body) => some ([], body)
    | some (line, rest) => do
        let field ← readField line
        let (fields, body) ← readHeader fuel rest
        return (field :: fields, body)

def readEntity (text : Bytes) : Option (List Field × Bytes) := readHeader text.length text

theorem cut_line {line : Bytes} (rest : Bytes) (unbroken : Unbroken line) :
    cutLine (line ++ crlf ++ rest) = some (line, rest) := by
  have found := index_skips [lf] (crlf ++ rest) (fun inside => (unbroken cr inside).1 rfl)
  rw [show cr :: [lf] = crlf from rfl, index_here rest (by decide), Option.map_some, Nat.zero_add,
    ← List.append_assoc] at found
  rw [cutLine, found, Option.map_some, ← List.drop_drop, List.append_assoc, List.take_left, List.drop_left]
  rfl

def Named (name : Bytes) : Prop := name ≠ [] ∧ Unbroken name ∧ byte ':' ∉ name

instance (name : Bytes) : Decidable (Named name) := inferInstanceAs (Decidable (_ ∧ _ ∧ _))

theorem read_field {field : Field} (named : byte ':' ∉ field.1) : readField (fieldLine field) = some field := by
  rw [readField, fieldLine, List.append_assoc, show ascii ": " = byte ':' :: ascii " " from rfl, List.cons_append,
    cut_append _ named, Option.map_some, trimPrefix, if_pos (by simp), List.drop_left]

theorem read_header {fields : List Field} (body : Bytes) (named : ∀ field ∈ fields, Named field.1)
    (unbroken : ∀ field ∈ fields, Unbroken field.2) : ∀ fuel, fields.length < fuel →
    readHeader fuel (fieldLines fields ++ crlf ++ body) = some (fields, body) := by
  induction fields with
  | nil =>
    intro fuel enough
    cases fuel with
    | zero => cases enough
    | succ fuel =>
      have first := cut_line body (fun b member => absurd member List.not_mem_nil)
      rw [readHeader, show fieldLines [] ++ crlf ++ body = [] ++ crlf ++ body from rfl, first]
  | cons field rest ih =>
    intro fuel enough
    cases fuel with
    | zero => cases enough
    | succ fuel =>
      obtain ⟨filled, whole, plain⟩ := named field List.mem_cons_self
      have line : Unbroken (fieldLine field) := unbroken_append _
        (unbroken_append _ whole (by decide)) (unbroken field List.mem_cons_self)
      have first := cut_line (fieldLines rest ++ crlf ++ body) line
      have more := ih (fun other inside => named other (List.mem_cons_of_mem field inside))
        (fun other inside => unbroken other (List.mem_cons_of_mem field inside)) fuel (Nat.lt_of_succ_lt_succ enough)
      have shape : fieldLines (field :: rest) ++ crlf ++ body =
          fieldLine field ++ crlf ++ (fieldLines rest ++ crlf ++ body) := by
        simp [fieldLines]
      have nonempty : fieldLine field ≠ [] := by
        intro none
        rw [fieldLine, List.append_eq_nil_iff, List.append_eq_nil_iff] at none
        exact filled none.1.1
      rw [readHeader, shape, first]
      cases lineShape : fieldLine field with
      | nil => exact absurd lineShape nonempty
      | cons b tail =>
        simp only
        rw [← lineShape, read_field plain, more]
        rfl

theorem read_entity (fields : List Field) (body : Bytes) (named : ∀ field ∈ fields, Named field.1)
    (unbroken : ∀ field ∈ fields, Unbroken field.2) :
    readEntity (fieldLines fields ++ crlf ++ body) = some (fields, body) := by
  have long : fields.length ≤ (fieldLines fields).length := by
    rw [fieldLines]
    clear named unbroken
    induction fields with
    | nil => exact Nat.le_refl 0
    | cons field rest ih =>
      rw [List.flatMap_cons, List.length_cons, List.length_append, List.length_append]
      have ending : crlf.length = 2 := rfl
      omega
  have ending : crlf.length = 2 := rfl
  apply read_header body named unbroken
  rw [List.length_append, List.length_append]
  omega

-- The pieces of a text between the places where a delimiter stands.
def pieces (delimiter : Bytes) : Nat → Bytes → List Bytes
  | 0, text => [text]
  | fuel + 1, text =>
    match index delimiter text with
    | none => [text]
    | some stop => text.take stop :: pieces delimiter fuel (text.drop (stop + delimiter.length))

theorem index_after {front : Bytes} (rest : Bytes) (filled : delimiter ≠ []) (absent : ¬ delimiter <:+: front)
    (ended : ∀ b, front.getLast? = some b → b ∉ delimiter) :
    index delimiter (front ++ (delimiter ++ rest)) = some front.length := by
  induction front with
  | nil => exact index_here rest filled
  | cons b tail ih =>
    have later := ih (fun inside => absent (inside.trans (List.infix_cons (List.infix_refl tail))))
      (fun c last => ended c (by rw [List.getLast?_cons, last, Option.getD_some]))
    have unmatched : ¬ delimiter.isPrefixOf (b :: (tail ++ (delimiter ++ rest))) = true := by
      intro matched
      rw [List.isPrefixOf_iff_prefix, ← List.cons_append] at matched
      by_cases short : delimiter.length ≤ (b :: tail).length
      · exact absent (List.prefix_of_prefix_length_le matched (List.prefix_append _ _) short).isInfix
      · -- The delimiter reaches past the text, so it has the last byte of it.
        have covered := List.prefix_of_prefix_length_le (List.prefix_append (b :: tail) (delimiter ++ rest)) matched
          (by omega)
        have last := List.getLast?_eq_some_getLast (List.cons_ne_nil b tail)
        exact ended _ last (covered.mem (List.getLast_mem (List.cons_ne_nil b tail)))
    rw [List.cons_append, index, if_neg unmatched, later]
    rfl

theorem pieces_after {front : Bytes} {rest : Bytes} (fuel : Nat) (filled : delimiter ≠ [])
    (absent : ¬ delimiter <:+: front) (ended : ∀ b, front.getLast? = some b → b ∉ delimiter) :
    pieces delimiter (fuel + 1) (front ++ (delimiter ++ rest)) = front :: pieces delimiter fuel rest := by
  rw [pieces, index_after rest filled absent ended]
  simp only
  rw [List.take_left, ← List.drop_drop, List.drop_left, List.drop_left]

theorem index_absent (absent : ¬ delimiter <:+: text) : index delimiter text = none := by
  induction text with
  | nil =>
    rw [index, if_neg]
    rintro rfl
    exact absent (List.infix_refl [])
  | cons b rest ih =>
    have later := ih (fun inside => absent (inside.trans (List.infix_cons (List.infix_refl rest))))
    rw [index, if_neg, later]
    · rfl
    · rw [List.isPrefixOf_iff_prefix]
      exact fun here => absent here.isInfix

theorem index_none (none : index delimiter text = none) : ¬ delimiter <:+: text := by
  induction text with
  | nil =>
    rw [index] at none
    split at none
    · cases none
    rename_i filled
    exact fun inside => filled (List.infix_nil.mp inside)
  | cons b rest ih =>
    rw [index] at none
    split at none
    · cases none
    rename_i unmatched
    rw [List.infix_cons_iff]
    rintro (here | later)
    · exact unmatched (List.isPrefixOf_iff_prefix.mpr here)
    · exact ih (Option.map_eq_none_iff.mp none) later

theorem pieces_last (fuel : Nat) (absent : ¬ delimiter <:+: text) : pieces delimiter fuel text = [text] := by
  cases fuel with
  | zero => rfl
  | succ fuel => rw [pieces, index_absent absent]

theorem infix_apart {b : UInt8} {part : Bytes} (left right : Bytes) (absent : b ∉ part)
    (inside : part <:+: left ++ b :: right) : part <:+: left ∨ part <:+: right := by
  obtain ⟨front, back, shape⟩ := inside
  rcases List.append_eq_append_iff.mp shape with ⟨rest, covered, _⟩ | ⟨rest, under, tail⟩
  · exact .inl ⟨front, rest, covered.symm⟩
  · cases rest with
    | nil =>
      rw [List.append_nil] at under
      exact .inl ⟨front, [], by rw [List.append_nil, under]⟩
    | cons c more =>
      obtain ⟨rfl, rfl⟩ := List.cons.inj tail
      rcases List.append_eq_append_iff.mp under with ⟨gap, _, split⟩ | ⟨gap, _, split⟩
      · exact absurd (split ▸ List.mem_append_right gap List.mem_cons_self) absent
      · cases gap with
        | nil => exact absurd ((List.nil_append part ▸ split) ▸ List.mem_cons_self) absent
        | cons d others =>
          obtain ⟨_, rfl⟩ := List.cons.inj split
          exact .inr ⟨others, back, rfl⟩

theorem infix_lines {part : Bytes} (left : Bytes) {right : Bytes} (unbroken : Unbroken part)
    (inside : part <:+: left ++ crlf ++ right) : part <:+: left ∨ part <:+: right := by
  have back : cr ∉ part := fun member => (unbroken cr member).1 rfl
  have feed : lf ∉ part := fun member => (unbroken lf member).2 rfl
  rw [List.append_assoc] at inside
  rcases infix_apart left (lf :: right) back inside with before | after
  · exact .inl before
  · rcases infix_apart [] right feed after with none | behind
    · rw [List.infix_nil.mp none]
      exact .inr (List.nil_infix)
    · exact .inr behind

-- The bodies of a text that a boundary divides: each begins on the line after a
-- delimiter and ends with the line before the next one. What precedes the first
-- delimiter and what follows the closing one are not part of it.
def readParts (boundary body : Bytes) : List Bytes :=
  ((pieces (ascii "--" ++ boundary) body.length body).drop 1).dropLast.map (trimPrefix crlf)

def delimited (boundary : Bytes) (parts : List Bytes) : Bytes :=
  parts.flatMap (fun part => ascii "--" ++ boundary ++ crlf ++ part) ++ (ascii "--" ++ boundary ++ ascii "--" ++ crlf)

theorem delimited_cons (boundary part : Bytes) (parts : List Bytes) :
    delimited boundary (part :: parts) =
      (ascii "--" ++ boundary) ++ (crlf ++ part ++ delimited boundary parts) := by
  simp [delimited]

theorem delimited_long (boundary : Bytes) (parts : List Bytes) :
    parts.length < (delimited boundary parts).length := by
  induction parts with
  | nil =>
    simp only [delimited, List.length_append, List.length_nil]
    have ending : crlf.length = 2 := rfl
    omega
  | cons part rest ih =>
    have dashes : (ascii "--").length = 2 := rfl
    rw [delimited_cons]
    simp only [List.length_cons, List.length_append]
    omega

section

variable (boundary : Bytes) (filled : boundary ≠ []) (unbroken : Unbroken boundary)

include filled unbroken

theorem delimiter_unclosed : ¬ (ascii "--" ++ boundary) <:+: ascii "--" ++ crlf := by
  intro inside
  have whole : Unbroken (ascii "--" ++ boundary) := unbroken_append _ (by decide) unbroken
  have long := List.length_pos_of_ne_nil filled
  rw [← List.append_nil (ascii "--" ++ crlf)] at inside
  rcases infix_lines _ whole inside with short | none
  · have bound := short.length_le
    rw [List.length_append] at bound
    omega
  · rw [List.infix_nil, List.append_eq_nil_iff] at none
    exact filled none.2

theorem pieces_delimited (parts : List Bytes) : ∀ (front : Bytes) (fuel : Nat), ¬ (ascii "--" ++ boundary) <:+: front →
    (∀ b, front.getLast? = some b → b ∉ ascii "--" ++ boundary) →
    (∀ part ∈ parts, ¬ (ascii "--" ++ boundary) <:+: part ∧ part.getLast? = some lf) → parts.length < fuel →
    pieces (ascii "--" ++ boundary) fuel (front ++ delimited boundary parts) =
      front :: (parts.map (crlf ++ ·) ++ [ascii "--" ++ crlf]) := by
  have whole : Unbroken (ascii "--" ++ boundary) := unbroken_append _ (by decide) unbroken
  have wide : ascii "--" ++ boundary ≠ [] := List.append_ne_nil_of_left_ne_nil (by decide) boundary
  induction parts with
  | nil =>
    intro front fuel absent ended _ enough
    cases fuel with
    | zero => cases enough
    | succ fuel =>
      rw [show delimited boundary [] = (ascii "--" ++ boundary) ++ (ascii "--" ++ crlf) by simp [delimited],
        pieces_after fuel wide absent ended,
        pieces_last fuel (delimiter_unclosed boundary filled unbroken)]
      rfl
  | cons part rest ih =>
    intro front fuel absent ended clear enough
    cases fuel with
    | zero => cases enough
    | succ fuel =>
      obtain ⟨outside, last⟩ := clear part List.mem_cons_self
      have apart : ¬ (ascii "--" ++ boundary) <:+: crlf ++ part := by
        intro inside
        rcases infix_lines [] whole inside with none | here
        · exact wide (List.infix_nil.mp none)
        · exact outside here
      have closing : ∀ b, (crlf ++ part).getLast? = some b → b ∉ ascii "--" ++ boundary := by
        intro b final member
        rw [List.getLast?_append, last, Option.some_or, Option.some.injEq] at final
        exact (whole b member).2 final.symm
      rw [delimited_cons, pieces_after fuel wide absent ended,
        ih (crlf ++ part) fuel apart closing (fun other inside => clear other (List.mem_cons_of_mem part inside))
          (Nat.lt_of_succ_lt_succ enough)]
      rfl

theorem read_delimited (parts : List Bytes)
    (clear : ∀ part ∈ parts, ¬ (ascii "--" ++ boundary) <:+: part ∧ part.getLast? = some lf) :
    readParts boundary (delimited boundary parts) = parts := by
  have wide : ascii "--" ++ boundary ≠ [] := List.append_ne_nil_of_left_ne_nil (by decide) boundary
  have found := pieces_delimited boundary filled unbroken parts [] (delimited boundary parts).length
    (fun inside => wide (List.infix_nil.mp inside)) (fun b last => by cases last) clear (delimited_long boundary parts)
  rw [List.nil_append] at found
  rw [readParts, found, List.drop_one, List.tail_cons, List.dropLast_concat, List.map_map]
  have trimmed : ∀ part, trimPrefix crlf (crlf ++ part) = part := by
    intro part
    rw [trimPrefix, if_pos (by simp), List.drop_left]
  exact (List.map_congr_left (fun part _ => trimmed part)).trans (List.map_id parts)

end

end Rfc5322
