import Goforge.Lib.GoString

set_option autoImplicit false

namespace Goforge.Dev

open GoString

def developmentLineBufferMax : Nat := 2 ^ 16

def developmentLineTruncation : Bytes := ascii " [output truncated]\n"

def newline : UInt8 := byte '\n'

-- What a line writer is made with. The destination answers a Write that comes
-- after the ones it was given before.
structure Setup (ε : Type) where
  service : Bytes
  readyLine : Option (Bytes → Bool)
  dest : List Bytes → Bytes → Nat × Option ε

inductive WriteErr (ε : Type) where
  | shortWrite
  | failed (err : ε)

-- The values given to the destination, and the lines readiness was marked for.
structure Output where
  sent : List Bytes
  marked : List Bytes
deriving DecidableEq

structure Writer where
  buffer : Bytes
  discarding : Bool
  out : Output

def newDevelopmentLineWriter : Writer := ⟨[], false, ⟨[], []⟩⟩

section

variable {ε : Type} (setup : Setup ε)

def Setup.tag : Bytes := ascii "[" ++ setup.service ++ ascii "] "

def writeLine (line : Bytes) (detectReady : Bool) (out : Output) : Option (WriteErr ε) × Output :=
  let value := setup.tag ++ line
  let answer := setup.dest out.sent value
  let out := { out with sent := out.sent ++ [value] }
  match answer.2 with
  | some err => (some (.failed err), out)
  | none =>
    if answer.1 ≠ value.length then (some .shortWrite, out)
    else if detectReady && setup.readyLine.any (· line) then (none, { out with marked := out.marked ++ [line] })
    else (none, out)

-- The loop of Write. The position is the length of the value where IndexByte is
-- negative. A full buffer takes nothing more before it is cut off.
def writeLoop (value : Bytes) (w : Writer) : Option (WriteErr ε) × Writer :=
  if value.length = 0 then (none, w)
  else
    let position := value.idxOf newline
    if w.discarding then
      if position = value.length then (none, w) else writeLoop (value.drop (position + 1))
        { w with discarding := false }
    else
      let capacity := developmentLineBufferMax - w.buffer.length
      if position < value.length ∧ position ≤ capacity then
        match writeLine setup (w.buffer ++ value.take (position + 1)) true w.out with
        | (some err, out) => (some err, ⟨[], false, out⟩)
        | (none, out) => writeLoop (value.drop (position + 1)) ⟨[], false, out⟩
      else if position = value.length ∧ value.length ≤ capacity then (none, { w with buffer := w.buffer ++ value })
      else
        match writeLine setup (w.buffer ++ value.take capacity ++ developmentLineTruncation) false w.out with
        | (some err, out) => (some err, ⟨[], true, out⟩)
        | (none, out) => writeLoop (value.drop capacity) ⟨[], true, out⟩
termination_by (value.length, if w.discarding then 0 else 1)
decreasing_by all_goals grind

def write (value : Bytes) (w : Writer) : (Nat × Option (WriteErr ε)) × Writer :=
  let result := writeLoop setup value w
  ((value.length, result.1), result.2)

def flush (w : Writer) : Option (WriteErr ε) × Writer :=
  if w.buffer = [] ∨ w.discarding then (none, ⟨[], false, w.out⟩)
  else
    let result := writeLine setup w.buffer true w.out
    (result.1, ⟨[], false, result.2⟩)

-- What is shown of a stream that comes in these Write calls before a Flush.
def output (chunks : List Bytes) : Output :=
  (flush setup (chunks.foldl (fun w value => (write setup value w).2) newDevelopmentLineWriter)).2.out

end

def endedLines (stream : Bytes) : List (Bytes × Bytes) := (split newline stream).dropLast.map (·, [newline])

def openLine (stream : Bytes) : Bytes := (split newline stream).getLastD []

def linesOf (stream : Bytes) : List (Bytes × Bytes) :=
  endedLines stream ++ (closed (openLine stream)).map (·, [])

def fits (line : Bytes) : Bool := decide (line.length ≤ developmentLineBufferMax)

def truncated (line : Bytes) : Bytes := line.take developmentLineBufferMax ++ developmentLineTruncation

def shown (line ending : Bytes) : Bytes := if fits line then line ++ ending else truncated line

section

variable {ε : Type} (setup : Setup ε)

def Setup.detects (line : Bytes × Bytes) : Bool := fits line.1 && setup.readyLine.any (· (line.1 ++ line.2))

def Output.lines (out : Output) (lines : List (Bytes × Bytes)) : Output :=
  ⟨out.sent ++ lines.map (fun line => setup.tag ++ shown line.1 line.2),
    out.marked ++ (lines.filter setup.detects).map (fun line => line.1 ++ line.2)⟩

theorem lines_append (out : Output) (first second : List (Bytes × Bytes)) :
    (out.lines setup first).lines setup second = out.lines setup (first ++ second) := by
  simp [Output.lines]

def position (stream : Bytes) : Writer :=
  let out := Output.lines setup ⟨[], []⟩ (endedLines stream)
  if fits (openLine stream) then ⟨openLine stream, false, out⟩
  else ⟨[], true, { out with sent := out.sent ++ [setup.tag ++ truncated (openLine stream)] }⟩

theorem split_extended (stream : Bytes) {value : Bytes} (absent : newline ∉ value) :
    split newline (stream ++ value) = (split newline stream).dropLast ++ [openLine stream ++ value] := by
  induction stream with
  | nil => simpa [openLine, split] using split_absent value absent
  | cons b rest ih =>
    rw [List.cons_append, split, openLine, split, ih, openLine]
    obtain ⟨part, parts, parted⟩ := List.exists_cons_of_ne_nil (split_nonempty newline rest)
    rw [parted]
    cases parts <;> split <;> simp

theorem extended_lines (stream : Bytes) {value : Bytes} (absent : newline ∉ value) :
    endedLines (stream ++ value) = endedLines stream ∧ openLine (stream ++ value) = openLine stream ++ value := by
  rw [endedLines, openLine, split_extended stream absent]
  simp [endedLines]

theorem ended_lines (stream : Bytes) {value : Bytes} (absent : newline ∉ value) :
    endedLines (stream ++ (value ++ [newline])) = endedLines stream ++ [(openLine stream ++ value, [newline])] ∧
      openLine (stream ++ (value ++ [newline])) = [] := by
  have parts : split newline (stream ++ (value ++ [newline])) =
      (split newline stream).dropLast ++ [openLine stream ++ value] ++ [[]] := by
    rw [← List.append_assoc, split_between, split_extended stream absent, split]
  constructor
  · rw [endedLines, parts, List.dropLast_concat, List.map_append, endedLines]
    rfl
  · rw [openLine, parts, List.getLastD_concat]

variable {line : Bytes}

theorem cut_line_shown (ending : Bytes) {out : Output} (long : fits line = false) :
    out.lines setup [(line, ending)] = { out with sent := out.sent ++ [setup.tag ++ truncated line] } := by
  simp [Output.lines, Setup.detects, shown, long]

theorem truncated_long (more : Bytes) (long : fits line = false) :
    fits (line ++ more) = false ∧ truncated (line ++ more) = truncated line := by
  rw [fits, decide_eq_false_iff_not] at *
  refine ⟨by rw [List.length_append]; omega, ?_⟩
  rw [truncated, List.take_append_of_le_length (by omega), truncated]

theorem truncated_full {more : Bytes} (short : fits line = true) :
    truncated (line ++ more) =
      line ++ more.take (developmentLineBufferMax - line.length) ++ developmentLineTruncation := by
  rw [fits, decide_eq_true_iff] at short
  rw [truncated, List.take_append, List.take_of_length_le short]

theorem position_ended (stream value : Bytes) (absent : newline ∉ value) :
    position setup (stream ++ (value ++ [newline])) =
    ⟨[], false, (Output.lines setup ⟨[], []⟩ (endedLines stream)).lines
      setup [(openLine stream ++ value, [newline])]⟩ := by
  obtain ⟨ended, opened⟩ := ended_lines stream absent
  rw [lines_append, ← ended, position, opened]
  rfl

theorem discards_line (front rest : Bytes) {out : Output} (absent : newline ∉ front) :
    writeLoop setup (front ++ newline :: rest) ⟨[], true, out⟩ = writeLoop setup rest ⟨[], false, out⟩ := by
  rw [writeLoop, if_neg (by simp)]
  simp [List.idxOf_append_of_notMem absent]

theorem discards_rest (value : Bytes) {out : Output} (absent : newline ∉ value) :
    writeLoop setup value ⟨[], true, out⟩ = (none, ⟨[], true, out⟩) := by
  rw [writeLoop]
  simp [List.idxOf_of_notMem absent]

theorem collects_rest {buffer value : Bytes} {out : Output} (absent : newline ∉ value)
    (whole : fits (buffer ++ value) = true) :
    writeLoop setup value ⟨buffer, false, out⟩ = (none, ⟨buffer ++ value, false, out⟩) := by
  have under : value.length ≤ developmentLineBufferMax - buffer.length := by
    simp only [fits, List.length_append, decide_eq_true_eq] at whole
    omega
  rw [writeLoop]
  split
  · rename_i empty
    simp [List.length_eq_zero_iff.mp empty]
  · simp [List.idxOf_of_notMem absent, under]

-- The destination takes every value whole.
variable (succeeds : ∀ sent value, setup.dest sent value = (value.length, none))

include succeeds

variable (buffer stream value : Bytes) (out : Output)

theorem write_line_whole {line : Bytes} (ending : Bytes) (out : Output) (short : fits line = true) :
    writeLine setup (line ++ ending) true out = (none, out.lines setup [(line, ending)]) := by
  simp only [writeLine, succeeds, Output.lines, shown, short, Setup.detects, ne_eq, not_true_eq_false,
    if_false, if_true, Bool.true_and, List.map_cons, List.map_nil, List.filter_cons, List.filter_nil]
  split <;> simp

theorem write_line_cut (line : Bytes) (out : Output) :
    writeLine setup line false out = (none, { out with sent := out.sent ++ [setup.tag ++ line] }) := by
  simp [writeLine, succeeds]

theorem collects_line {front : Bytes} (rest : Bytes) {out : Output} (absent : newline ∉ front)
    (whole : fits (buffer ++ front) = true) : writeLoop setup (front ++ newline :: rest) ⟨buffer, false, out⟩ =
      writeLoop setup rest ⟨[], false, out.lines setup [(buffer ++ front, [newline])]⟩ := by
  have here : (front ++ newline :: rest).idxOf newline = front.length := by
    simp [List.idxOf_append_of_notMem absent]
  have under : front.length ≤ developmentLineBufferMax - buffer.length := by
    simp only [fits, List.length_append, decide_eq_true_eq] at whole
    omega
  have value : front ++ newline :: rest = (front ++ [newline]) ++ rest := by simp
  have length : front.length + 1 = (front ++ [newline]).length := by simp
  rw [writeLoop, if_neg (by simp)]
  simp only [here, Bool.false_eq_true, if_false, under, and_true]
  rw [if_pos (by simp), value, length, List.take_left, List.drop_left, ← List.append_assoc,
    write_line_whole setup succeeds _ _ whole]

theorem cuts_off (past : developmentLineBufferMax - buffer.length < value.idxOf newline) :
    writeLoop setup value ⟨buffer, false, out⟩ =
      writeLoop setup (value.drop (developmentLineBufferMax - buffer.length)) ⟨[], true, { out with sent := out.sent ++
        [setup.tag ++ (buffer ++ value.take (developmentLineBufferMax - buffer.length) ++ developmentLineTruncation)]
          }⟩ := by
  have inside := List.idxOf_le_length (a := newline) (l := value)
  rw [writeLoop, if_neg (by omega)]
  simp only [Bool.false_eq_true, if_false, write_line_cut setup succeeds]
  rw [if_neg (by omega), if_neg (by omega)]

theorem takes_line (front rest : Bytes) (absent : newline ∉ front) :
    writeLoop setup (front ++ newline :: rest) (position setup stream) =
      writeLoop setup rest (position setup (stream ++ (front ++ [newline]))) := by
  rw [position_ended setup stream front absent, position]
  cases short : fits (openLine stream) with
  | false =>
    obtain ⟨long, same⟩ := truncated_long front short
    rw [cut_line_shown _ _ long, same]
    exact discards_line setup front rest absent
  | true =>
    cases whole : fits (openLine stream ++ front) with
    | true => exact collects_line setup succeeds (openLine stream) rest absent whole
    | false =>
      have past : developmentLineBufferMax - (openLine stream).length < front.length := by
        simp only [fits, List.length_append, decide_eq_true_eq, decide_eq_false_iff_not] at short whole
        omega
      rw [cut_line_shown _ _ whole, truncated_full short]
      refine (cuts_off setup succeeds _ _ _ (by simpa [List.idxOf_append_of_notMem absent] using past)).trans ?_
      rw [List.take_append_of_le_length (by omega), List.drop_append_of_le_length (by omega)]
      exact discards_line setup _ rest (fun inside => absent (List.mem_of_mem_drop inside))

theorem takes_rest (absent : newline ∉ value) :
    writeLoop setup value (position setup stream) = (none, position setup (stream ++ value)) := by
  obtain ⟨ended, opened⟩ := extended_lines stream absent
  rw [position, position, ended, opened]
  cases short : fits (openLine stream) with
  | false =>
    obtain ⟨long, same⟩ := truncated_long value short
    rw [long, same]
    exact discards_rest setup value absent
  | true =>
    cases whole : fits (openLine stream ++ value) with
    | true => exact collects_rest setup absent whole
    | false =>
      have past : developmentLineBufferMax - (openLine stream).length < value.length := by
        simp only [fits, List.length_append, decide_eq_true_eq, decide_eq_false_iff_not] at short whole
        omega
      rw [truncated_full short]
      refine (cuts_off setup succeeds _ _ _ (by rwa [List.idxOf_of_notMem absent])).trans ?_
      exact discards_rest setup _ (fun inside => absent (List.mem_of_mem_drop inside))

theorem loop_position : ∀ stream,
    writeLoop setup value (position setup stream) = (none, position setup (stream ++ value)) := by
  induction length : value.length using Nat.strong_induction_on generalizing value with
  | _ count ih =>
    intro stream
    by_cases inside : newline ∈ value
    · obtain ⟨front, rest, rfl, absent⟩ := List.eq_append_cons_of_mem inside
      rw [List.length_append, List.length_cons] at length
      rw [takes_line setup succeeds stream front rest absent, ih rest.length (by omega) rest rfl]
      simp
    · exact takes_rest setup succeeds stream value inside

theorem chunks_position (chunks : List Bytes) : ∀ stream,
    chunks.foldl (fun w value => (write setup value w).2) (position setup stream) =
      position setup (stream ++ chunks.flatten) := by
  induction chunks with
  | nil => simp
  | cons value rest ih =>
    intro stream
    rw [List.foldl_cons, write, loop_position setup succeeds, ih, List.flatten_cons, List.append_assoc]

theorem flush_position :
    (flush setup (position setup stream)).2.out = Output.lines setup ⟨[], []⟩ (linesOf stream) := by
  rw [linesOf, ← lines_append, position, flush]
  cases short : fits (openLine stream) with
  | false =>
    have some : openLine stream ≠ [] := fun none => by simp [none, fits] at short
    rw [closed, if_neg some]
    simpa using (cut_line_shown _ [] short).symm
  | true =>
    by_cases none : openLine stream = []
    · simp [none, closed, Output.lines]
    · have whole := write_line_whole setup succeeds [] (Output.lines setup ⟨[], []⟩ (endedLines stream)) short
      rw [List.append_nil] at whole
      simp [none, closed, whole]

end

theorem line_output {ε : Type} {setup : Setup ε} (chunks : List Bytes)
    (succeeds : ∀ sent value, setup.dest sent value = (value.length, none)) :
    output setup chunks = ⟨(linesOf chunks.flatten).map (fun line => setup.tag ++ shown line.1 line.2),
        ((linesOf chunks.flatten).filter setup.detects).map (fun line => line.1 ++ line.2)⟩ ∧
      ∀ others : List Bytes, others.flatten = chunks.flatten → output setup others = output setup chunks := by
  have lines : ∀ chunks, output setup chunks = Output.lines setup ⟨[], []⟩ (linesOf chunks.flatten) := by
    intro chunks
    have start : newDevelopmentLineWriter = position setup [] := rfl
    rw [output, start, chunks_position setup succeeds, flush_position setup succeeds, List.nil_append]
  refine ⟨lines chunks, fun others same => ?_⟩
  rw [lines others, lines chunks, same]

def sampleSetup : Setup Unit := ⟨ascii "web", some (· = ascii "ready\n"), fun _ value => (value.length, none)⟩

theorem line_output_sample : output sampleSetup [ascii "rea", ascii "dy\nlast"] =
    ⟨[ascii "[web] ready\n", ascii "[web] last"], [ascii "ready\n"]⟩ :=
  (line_output [ascii "rea", ascii "dy\nlast"] (fun _ _ => rfl)).1.trans (by decide)

end Goforge.Dev
