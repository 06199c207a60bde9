import Goforge.Lib.Mime

set_option autoImplicit false

namespace QuotedPrintable

open GoString Mime

def cr : UInt8 := 0x0D

def lf : UInt8 := 0x0A

def crlf : Bytes := [cr, lf]

def isWhitespace (b : UInt8) : Bool := decide (b = byte ' ' ∨ b = byte '\t')

def lineMaxLen : Nat := 76

structure Writer where
  out : Bytes
  line : Bytes
  cr : Bool
  deriving DecidableEq

def insertCRLF (w : Writer) : Writer := { w with out := w.out ++ (w.line ++ crlf), line := [] }

def insertSoftLineBreak (w : Writer) : Writer := insertCRLF { w with line := w.line ++ [byte '='] }

def escaped (b : UInt8) : Bytes := [byte '=', upperHex (b.toNat / 16), upperHex (b.toNat % 16)]

def encodeByte (w : Writer) (b : UInt8) : Writer :=
  let w := if lineMaxLen - 1 - w.line.length < 3 then insertSoftLineBreak w else w
  { w with line := w.line ++ escaped b, cr := false }

def checkLastByte (w : Writer) : Writer :=
  match w.line.getLast? with
  | none => w
  | some b => if isWhitespace b then encodeByte { w with line := w.line.dropLast } b else w

def writeByte (w : Writer) (b : UInt8) : Writer :=
  if b = lf ∨ b = cr then
    if w.cr = true ∧ b = lf then { w with cr := false }
    else
      let w := insertCRLF (checkLastByte w)
      if b = cr then { w with cr := true } else w
  else
    let w := if w.line.length = lineMaxLen - 1 then insertSoftLineBreak w else w
    { w with line := w.line ++ [b], cr := false }

def plain (b : UInt8) : Bool := within (byte '!') (byte '~') b && decide (b ≠ byte '=') || isWhitespace b

def step (w : Writer) (b : UInt8) : Writer :=
  if plain b || decide (b = lf ∨ b = cr) then writeByte w b else encodeByte w b

def close (w : Writer) : Bytes := (checkLastByte w).out ++ (checkLastByte w).line

def start : Writer := ⟨[], [], false⟩

def encode (text : Bytes) : Bytes := close (text.foldl step start)

def readBytes : Bytes → Option Bytes
  | [] => some []
  | b :: rest =>
    if b = byte '=' then
      match rest with
      | [] => none
      | [next] => if next = cr ∨ next = lf then none else (readBytes [next]).map (fun more => b :: more)
      | high :: low :: tail =>
        match readHexByte high low with
        | some value => (readBytes tail).map (fun more => value :: more)
        | none =>
          if high = cr ∨ high = lf then none
          else (readBytes (high :: low :: tail)).map (fun more => b :: more)
    else if b = byte '\t' ∨ b = cr ∨ b = lf ∨ 0x80 ≤ b ∨ within (byte ' ') (byte '~') b then
      (readBytes rest).map (fun more => b :: more)
    else none

def discarded (b : UInt8) : Bool := decide (b = lf ∨ b = cr ∨ b = byte ' ' ∨ b = byte '\t')

def trimEnd (line : Bytes) : Bytes := (line.reverse.dropWhile discarded).reverse

def readLine (whole : Bytes) (last : Bool) : Option Bytes :=
  let line := trimEnd whole
  if line.getLast? = some (byte '=') then
    let stripped := whole.drop line.length
    let line := line.dropLast
    if [lf].isPrefixOf stripped || crlf.isPrefixOf stripped || (stripped.isEmpty && !line.isEmpty && last) then
      readBytes line
    else none
  else if crlf.isSuffixOf whole then readBytes (line ++ crlf)
  else if [lf].isSuffixOf whole then readBytes (line ++ [lf])
  else readBytes line

def decodeFrom (line : Bytes) : Bytes → Option Bytes
  | [] => readLine line true
  | b :: rest =>
    if b = lf then do
      let first ← readLine (line ++ [b]) false
      let more ← decodeFrom [] rest
      return first ++ more
    else decodeFrom (line ++ [b]) rest

-- What quotedprintable.Reader gives, none for an error.
def decode (text : Bytes) : Option Bytes := decodeFrom [] text

inductive Spells : Bytes → Bytes → Prop
  | nil : Spells [] []
  | plain {line bytes : Bytes} (b : UInt8) : Spells line bytes → plain b = true → Spells (line ++ [b]) (bytes ++ [b])
  | escaped {line bytes : Bytes} (b : UInt8) : Spells line bytes → Spells (line ++ escaped b) (bytes ++ [b])

theorem plain_cases : ∀ n < 256, plain (UInt8.ofNat n) = true →
    UInt8.ofNat n ≠ byte '=' ∧ UInt8.ofNat n ≠ lf ∧ UInt8.ofNat n ≠ cr ∧
      (UInt8.ofNat n = byte '\t' ∨ UInt8.ofNat n = cr ∨ UInt8.ofNat n = lf ∨ 0x80 ≤ UInt8.ofNat n ∨
        within (byte ' ') (byte '~') (UInt8.ofNat n)) := by
  decide +kernel

variable {b : UInt8} {line bytes text : Bytes} {w : Writer}

theorem plain_byte (kept : plain b = true) : b ≠ byte '=' ∧ b ≠ lf ∧ b ≠ cr ∧
    (b = byte '\t' ∨ b = cr ∨ b = lf ∨ 0x80 ≤ b ∨ within (byte ' ') (byte '~') b) := by
  have all := plain_cases b.toNat b.toNat_lt
  rw [UInt8.ofNat_toNat] at all
  exact all kept

theorem hex_digits : ∀ n < 256, readHexByte (upperHex (n / 16)) (upperHex (n % 16)) = some (UInt8.ofNat n) ∧
    upperHex (n / 16) ≠ lf ∧ upperHex (n / 16) ≠ cr ∧ upperHex (n % 16) ≠ lf ∧ upperHex (n % 16) ≠ cr ∧
    upperHex (n % 16) ≠ byte '=' ∧ isWhitespace (upperHex (n % 16)) = false := by
  decide +kernel

theorem read_plain (rest : Bytes) (kept : plain b = true) :
    readBytes (b :: rest) = (readBytes rest).map (fun more => b :: more) := by
  obtain ⟨other, _, _, allowed⟩ := plain_byte kept
  rw [readBytes.eq_def]
  simp only [if_neg other, if_pos allowed]

theorem read_escaped (b : UInt8) (rest : Bytes) :
    readBytes (escaped b ++ rest) = (readBytes rest).map (fun more => b :: more) := by
  have read := (hex_digits b.toNat b.toNat_lt).1
  rw [UInt8.ofNat_toNat] at read
  rw [escaped]
  simp only [List.cons_append, List.nil_append]
  rw [readBytes, if_pos rfl, read]

theorem spells_read (spelled : Spells line bytes) : ∀ tail,
    readBytes (line ++ tail) = (readBytes tail).map (fun more => bytes ++ more) := by
  induction spelled with
  | nil =>
    intro tail
    simp
  | plain b _ kept ih =>
    intro tail
    rw [List.append_assoc, ih, List.singleton_append, read_plain tail kept, Option.map_map]
    congr 1
    funext more
    simp
  | escaped b _ ih =>
    intro tail
    rw [List.append_assoc, ih, read_escaped, Option.map_map]
    congr 1
    funext more
    simp

theorem spells_unbroken (spelled : Spells line bytes) : lf ∉ line ∧ cr ∉ line := by
  induction spelled with
  | nil => exact ⟨List.not_mem_nil, List.not_mem_nil⟩
  | plain b _ kept ih =>
    obtain ⟨_, feed, back, _⟩ := plain_byte kept
    simp only [List.mem_append, List.mem_singleton, not_or]
    exact ⟨⟨ih.1, Ne.symm feed⟩, ih.2, Ne.symm back⟩
  | escaped b _ ih =>
    obtain ⟨_, high, high', low, low', _⟩ := hex_digits b.toNat b.toNat_lt
    simp only [escaped, List.mem_append, List.mem_cons, List.not_mem_nil, or_false, not_or]
    exact ⟨⟨ih.1, by decide, Ne.symm high, Ne.symm low⟩, ih.2, by decide, Ne.symm high', Ne.symm low'⟩

theorem spells_last (spelled : Spells line bytes) (last : line.getLast? = some b) :
    b ≠ byte '=' ∧ (isWhitespace b = true → ∃ front, Spells line.dropLast front ∧ bytes = front ++ [b]) := by
  cases spelled with
  | nil => cases last
  | plain c before kept =>
    rw [List.getLast?_concat, Option.some.injEq] at last
    subst last
    refine ⟨(plain_byte kept).1, fun _ => ⟨_, ?_, rfl⟩⟩
    rw [List.dropLast_concat]
    exact before
  | escaped c before =>
    obtain ⟨_, _, _, _, _, unmarked, solid⟩ := hex_digits c.toNat c.toNat_lt
    have same : upperHex (c.toNat % 16) = b := by simpa [QuotedPrintable.escaped] using last
    subst same
    refine ⟨unmarked, fun blank => ?_⟩
    rw [solid] at blank
    cases blank

theorem trim_end_kept {tail : Bytes} (gone : ∀ b ∈ tail, discarded b = true)
    (kept : ∀ b, line.getLast? = some b → discarded b = false) : trimEnd (line ++ tail) = line := by
  rw [trimEnd, List.reverse_append, List.dropWhile_append_of_pos (by simpa using gone)]
  cases shape : line.reverse with
  | nil =>
    rw [List.reverse_eq_nil_iff.mp shape]
    rfl
  | cons b rest =>
    have last : line.getLast? = some b := by rw [List.getLast?_eq_head?_reverse, shape, List.head?_cons]
    rw [List.dropWhile_cons_of_neg (by rw [kept b last]; exact Bool.false_ne_true), ← shape, List.reverse_reverse]

theorem crlf_discarded : ∀ b ∈ crlf, discarded b = true := by
  simp [crlf, discarded]

theorem decode_from_line (line : Bytes) (rest : Bytes) (unbroken : lf ∉ line) : ∀ front,
    decodeFrom front (line ++ lf :: rest) = (do
      let first ← readLine (front ++ line ++ [lf]) false
      let more ← decode rest
      return first ++ more) := by
  induction line with
  | nil =>
    intro front
    rw [List.nil_append, decodeFrom, if_pos rfl, List.append_nil, decode]
  | cons b tail ih =>
    intro front
    have other : b ≠ lf := fun same => unbroken (same ▸ List.mem_cons_self)
    rw [List.cons_append, decodeFrom, if_neg other, ih (fun inside => unbroken (List.mem_cons_of_mem b inside)),
      List.append_assoc front, List.singleton_append]

theorem decode_from_end (unbroken : lf ∉ line) : ∀ front,
    decodeFrom front line = readLine (front ++ line) true := by
  induction line with
  | nil =>
    intro front
    rw [decodeFrom, List.append_nil]
  | cons b tail ih =>
    intro front
    have other : b ≠ lf := fun same => unbroken (same ▸ List.mem_cons_self)
    rw [decodeFrom, if_neg other, ih (fun inside => unbroken (List.mem_cons_of_mem b inside)),
      List.append_assoc, List.singleton_append]

theorem decode_line (line rest : Bytes) (unbroken : lf ∉ line) : decode (line ++ crlf ++ rest) = (do
    let first ← readLine (line ++ crlf) false
    let more ← decode rest
    return first ++ more) := by
  have broken := decode_from_line (line ++ [cr]) rest (by simp [unbroken]; decide) []
  simpa [decode, crlf] using broken

theorem read_line_soft (spelled : Spells line bytes) : readLine (line ++ [byte '='] ++ crlf) false = some bytes := by
  have trimmed : trimEnd (line ++ [byte '='] ++ crlf) = line ++ [byte '='] := by
    apply trim_end_kept crlf_discarded
    intro b last
    rw [List.getLast?_concat, Option.some.injEq] at last
    subst last
    rfl
  have read := spells_read spelled []
  rw [List.append_nil, readBytes, Option.map_some, List.append_nil] at read
  rw [readLine, trimmed, List.getLast?_concat]
  simp only [List.drop_left, List.dropLast_concat, if_true]
  exact read

def Trimmed (line : Bytes) : Prop := ∀ b, line.getLast? = some b → isWhitespace b = false

theorem trimmed_kept (spelled : Spells line bytes) (trimmed : Trimmed line) (b : UInt8)
    (last : line.getLast? = some b) : discarded b = false ∧ b ≠ byte '=' := by
  obtain ⟨feed, back⟩ := spells_unbroken spelled
  have inside := List.mem_of_getLast? last
  have solid := trimmed b last
  simp only [isWhitespace, decide_eq_false_iff_not] at solid
  refine ⟨?_, (spells_last spelled last).1⟩
  simp only [discarded, decide_eq_false_iff_not]
  rintro (rfl | rfl | blank)
  · exact feed inside
  · exact back inside
  · exact solid blank

theorem read_line_hard (spelled : Spells line bytes) (trimmed : Trimmed line) :
    readLine (line ++ crlf) false = some (bytes ++ crlf) := by
  have kept := trimmed_kept spelled trimmed
  have cutBack : trimEnd (line ++ crlf) = line := trim_end_kept crlf_discarded (fun b last => (kept b last).1)
  have unmarked : line.getLast? ≠ some (byte '=') := fun last => (kept _ last).2 rfl
  have read := spells_read spelled crlf
  rw [show readBytes crlf = some crlf from rfl, Option.map_some] at read
  rw [readLine, cutBack]
  simp only [if_neg unmarked]
  rw [if_pos (by simp), read]

theorem read_line_last (spelled : Spells line bytes) (trimmed : Trimmed line) : readLine line true = some bytes := by
  have kept := trimmed_kept spelled trimmed
  have cutBack : trimEnd (line ++ []) = line := trim_end_kept (by simp) (fun b last => (kept b last).1)
  have unmarked : line.getLast? ≠ some (byte '=') := fun last => (kept _ last).2 rfl
  have feed := (spells_unbroken spelled).1
  have read := spells_read spelled []
  rw [List.append_nil, readBytes, Option.map_some, List.append_nil] at read
  rw [List.append_nil] at cutBack
  have unended : ∀ tail : Bytes, lf ∈ tail → tail.isSuffixOf line = false := by
    intro tail inside
    rw [Bool.eq_false_iff]
    exact fun ended => feed ((List.isSuffixOf_iff_suffix.mp ended).mem inside)
  rw [readLine, cutBack]
  simp only [if_neg unmarked]
  rw [unended crlf (by decide), unended [lf] (by decide)]
  exact read

def Holds (w : Writer) (text : Bytes) : Prop := ∃ done bytes,
  (∀ tail, decode (w.out ++ tail) = (decode tail).map (fun more => done ++ more)) ∧
    Spells w.line bytes ∧ text = done ++ bytes

theorem start_holds : Holds start [] := ⟨[], [], fun tail => by simp [start], Spells.nil, rfl⟩

theorem soft_break_holds (held : Holds w text) : Holds (insertSoftLineBreak w) text := by
  obtain ⟨done, bytes, read, spelled, rfl⟩ := held
  refine ⟨done ++ bytes, [], ?_, Spells.nil, by simp⟩
  intro tail
  have feed := (spells_unbroken spelled).1
  have broken := decode_line (w.line ++ [byte '=']) tail (by simp [feed]; decide)
  rw [read_line_soft spelled] at broken
  simp only [insertSoftLineBreak, insertCRLF]
  rw [List.append_assoc, read, broken]
  cases decode tail with
  | none => rfl
  | some more => simp

theorem append_holds (held : Holds w text) {piece : Bytes}
    (grows : ∀ line bytes, Spells line bytes → Spells (line ++ piece) (bytes ++ [b])) {wide : Prop} [Decidable wide] :
    Holds { (if wide then insertSoftLineBreak w else w) with
      line := (if wide then insertSoftLineBreak w else w).line ++ piece, cr := false } (text ++ [b]) := by
  have ready : Holds (if wide then insertSoftLineBreak w else w) text := by
    split
    · exact soft_break_holds held
    · exact held
  obtain ⟨done, bytes, read, spelled, rfl⟩ := ready
  exact ⟨done, bytes ++ [b], read, grows _ _ spelled, by rw [List.append_assoc]⟩

theorem encode_byte_holds (b : UInt8) (held : Holds w text) : Holds (encodeByte w b) (text ++ [b]) :=
  append_holds held (fun _ _ spelled => Spells.escaped b spelled)

theorem encode_byte_last {w : Writer} (b : UInt8) : Trimmed (encodeByte w b).line := by
  intro c last
  have same : upperHex (b.toNat % 16) = c := by simpa [encodeByte, escaped] using last
  subst same
  exact (hex_digits b.toNat b.toNat_lt).2.2.2.2.2.2

theorem check_last_byte_holds (held : Holds w text) :
    Holds (checkLastByte w) text ∧ Trimmed (checkLastByte w).line := by
  rw [checkLastByte]
  cases last : w.line.getLast? with
  | none =>
    refine ⟨held, fun b other => ?_⟩
    rw [last] at other
    cases other
  | some b =>
    by_cases blank : isWhitespace b = true
    · simp only [if_pos blank]
      refine ⟨?_, encode_byte_last b⟩
      obtain ⟨done, bytes, read, spelled, rfl⟩ := held
      obtain ⟨front, before, rfl⟩ := (spells_last spelled last).2 blank
      rw [← List.append_assoc]
      exact encode_byte_holds b ⟨done, front, read, before, rfl⟩
    · simp only [if_neg blank]
      refine ⟨held, fun c other => ?_⟩
      rw [last, Option.some.injEq] at other
      subst other
      exact Bool.eq_false_iff.mpr blank

theorem insert_holds (held : Holds w text) (trimmed : Trimmed w.line) : Holds (insertCRLF w) (text ++ crlf) := by
  obtain ⟨done, bytes, read, spelled, rfl⟩ := held
  refine ⟨done ++ bytes ++ crlf, [], ?_, Spells.nil, by simp⟩
  intro tail
  have broken := decode_line w.line tail (spells_unbroken spelled).1
  rw [read_line_hard spelled trimmed] at broken
  simp only [insertCRLF]
  rw [List.append_assoc, read, broken]
  cases decode tail with
  | none => rfl
  | some more => simp

theorem step_byte (held : Holds w text) (feed : b ≠ lf) (back : b ≠ cr) : Holds (step w b) (text ++ [b]) := by
  have unended : ¬ (b = lf ∨ b = cr) := not_or.mpr ⟨feed, back⟩
  rw [step]
  by_cases kept : plain b = true
  · rw [kept, Bool.true_or, if_pos rfl, writeByte, if_neg unended]
    exact append_holds held (fun _ _ spelled => Spells.plain b spelled kept)
  · rw [Bool.eq_false_iff.mpr kept, decide_eq_false unended, Bool.or_false, if_neg Bool.false_ne_true]
    exact encode_byte_holds b held

theorem step_crlf (w : Writer) : step (step w cr) lf = { insertCRLF (checkLastByte w) with cr := false } := by
  have first : step w cr = { insertCRLF (checkLastByte w) with cr := true } := by
    rw [step, if_pos (by decide), writeByte, if_pos (by decide), if_neg (fun both => absurd both.2 (by decide))]
    rfl
  have second : ∀ w : Writer, w.cr = true → step w lf = { w with cr := false } := by
    intro w flag
    rw [step, if_pos (by decide), writeByte, if_pos (by decide), if_pos ⟨flag, rfl⟩]
  rw [first, second _ rfl]

theorem step_line (held : Holds w text) : Holds (step (step w cr) lf) (text ++ crlf) := by
  obtain ⟨checked, trimmed⟩ := check_last_byte_holds held
  rw [step_crlf]
  exact insert_holds checked trimmed

theorem encode_line (text : Bytes) : encode (text ++ crlf) = encode text ++ crlf := by
  rw [encode, List.foldl_append, show ∀ w, crlf.foldl step w = step (step w cr) lf from fun _ => rfl, step_crlf, encode]
  simp [close, checkLastByte, insertCRLF]

def lineEnd (b : UInt8) : Bytes := if b = lf then crlf else [b]

theorem write_holds (unreturned : cr ∉ text) : ∀ (w : Writer) (before : Bytes), Holds w before →
    Holds ((text.flatMap lineEnd).foldl step w) (before ++ text.flatMap lineEnd) := by
  induction text with
  | nil =>
    intro w before held
    simpa using held
  | cons b rest ih =>
    intro w before held
    have back : b ≠ cr := fun same => unreturned (same ▸ List.mem_cons_self)
    have one : Holds ((lineEnd b).foldl step w) (before ++ lineEnd b) := by
      rw [lineEnd]
      split
      · exact step_line held
      · exact step_byte held (by assumption) back
    have all := ih (fun inside => unreturned (List.mem_cons_of_mem b inside)) _ _ one
    rwa [List.append_assoc, ← List.foldl_append, ← List.flatMap_cons] at all

theorem decode_encode (text : Bytes) (unreturned : cr ∉ text) :
    decode (encode (text.flatMap lineEnd)) = some (text.flatMap lineEnd) ∧
      decode (encode (text.flatMap lineEnd) ++ crlf) = some (text.flatMap lineEnd ++ crlf) := by
  have written := write_holds unreturned start [] start_holds
  rw [List.nil_append] at written
  rw [encode, close]
  generalize (text.flatMap lineEnd).foldl step start = w at written
  obtain ⟨⟨done, bytes, read, spelled, shape⟩, trimmed⟩ := check_last_byte_holds written
  have unbroken := (spells_unbroken spelled).1
  refine ⟨?_, ?_⟩
  · have last := decode_from_end unbroken []
    rw [List.nil_append, read_line_last spelled trimmed] at last
    rw [read, decode, last, shape]
    rfl
  · have last := decode_line (checkLastByte w).line [] unbroken
    rw [read_line_hard spelled trimmed, List.append_nil] at last
    rw [List.append_assoc, read, last, shape, show decode [] = some [] from rfl]
    simp

end QuotedPrintable
