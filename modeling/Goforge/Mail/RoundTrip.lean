import Goforge.Mail.Encoding

set_option autoImplicit false

namespace Goforge.Mail

open GoString QuotedPrintable Rfc5322

def lineEnds : Bytes → Bytes
  | [] => []
  | [b] => if b = cr ∨ b = lf then crlf else [b]
  | b :: c :: rest =>
    if b = cr ∧ c = lf then crlf ++ lineEnds rest
    else if b = cr ∨ b = lf then crlf ++ lineEnds (c :: rest)
    else b :: lineEnds (c :: rest)

def ended (text : Bytes) : Bytes := if crlf.isSuffixOf text then text else text ++ crlf

def feeds (value : Bytes) : Bytes := replaceAll [cr] [lf] (replaceAll crlf [lf] value)

variable (body value : Bytes)

theorem feeds_unreturned : cr ∉ feeds value := by
  rw [feeds, replace_single]
  intro member
  obtain ⟨b, _, inside⟩ := List.mem_flatMap.mp member
  split at inside
  · exact absurd (List.mem_singleton.mp inside) (by decide)
  rename_i other
  exact other (List.mem_singleton.mp inside).symm

theorem normalize_feeds : normalizeCRLF value = (feeds value).flatMap lineEnd := by
  rw [normalizeCRLF, replace_single, ← feeds]
  rfl

theorem feeds_cons {b : UInt8} {rest : Bytes} (alone : ¬ crlf.isPrefixOf (b :: rest) = true) :
    feeds (b :: rest) = (if b = cr then lf else b) :: feeds rest := by
  rw [feeds, replaceAll, replaceAll, replaceFrom, if_neg alone, feeds, replaceAll, replaceAll, replaceFrom]
  by_cases back : b = cr
  · subst back
    rfl
  · rw [if_neg (by simpa [List.isPrefixOf] using Ne.symm back), if_neg back]

theorem feeds_crlf (rest : Bytes) : feeds (cr :: lf :: rest) = lf :: feeds rest := rfl

theorem normalize_line_ends : normalizeCRLF value = lineEnds value := by
  rw [normalize_feeds]
  have byte : ∀ b, ¬ (b = cr ∨ b = lf) → lineEnd (if b = cr then lf else b) = [b] := by
    intro b other
    rw [not_or] at other
    rw [if_neg other.1, lineEnd, if_neg other.2]
  have ending : ∀ b, b = cr ∨ b = lf → lineEnd (if b = cr then lf else b) = crlf := by
    rintro b (rfl | rfl) <;> rfl
  have here : ∀ b c rest, crlf.isPrefixOf (b :: c :: rest) = true → b = cr ∧ c = lf := by
    intro b c rest found
    rw [crlf, List.isPrefixOf, List.isPrefixOf, Bool.and_eq_true, Bool.and_eq_true, beq_iff_eq, beq_iff_eq] at found
    exact ⟨found.1.symm, found.2.1.symm⟩
  induction value using lineEnds.induct with
  | case1 => rfl
  | case2 b broken =>
    rw [feeds_cons (by simp [crlf, List.isPrefixOf]), List.flatMap_cons, lineEnds, if_pos broken, ending b broken]
    rfl
  | case3 b other =>
    rw [feeds_cons (by simp [crlf, List.isPrefixOf]), List.flatMap_cons, lineEnds, if_neg other, byte b other]
    rfl
  | case4 b c rest both ih =>
    obtain ⟨rfl, rfl⟩ := both
    rw [feeds_crlf, List.flatMap_cons, ih, lineEnds, if_pos ⟨rfl, rfl⟩]
    rfl
  | case5 b c rest alone broken ih =>
    rw [feeds_cons (fun found => alone (here b c rest found)), List.flatMap_cons, ih, ending b broken,
      lineEnds, if_neg alone, if_pos broken]
  | case6 b c rest alone other ih =>
    rw [feeds_cons (fun found => alone (here b c rest found)), List.flatMap_cons, ih, byte b other,
      lineEnds, if_neg alone, if_neg other, List.singleton_append]

theorem decode_written : decode (writeQuotedPrintable body) = some (ended (lineEnds body)) := by
  have back := decode_encode (feeds body) (feeds_unreturned body)
  rw [← normalize_feeds, normalize_line_ends] at back
  rw [writeQuotedPrintable, normalize_line_ends, ended]
  split
  · rw [List.append_nil]
    exact back.1
  · exact back.2

theorem written_ended : ∃ front, writeQuotedPrintable body = front ++ crlf := by
  rw [writeQuotedPrintable]
  split
  · rename_i suffix
    obtain ⟨front, shape⟩ := List.isSuffixOf_iff_suffix.mp suffix
    rw [← shape, encode_line, List.append_nil]
    exact ⟨_, rfl⟩
  · exact ⟨_, rfl⟩

def partFields (contentType : String) : List Field :=
  [(ascii "Content-Type", ascii contentType), (ascii "Content-Transfer-Encoding", ascii "quoted-printable")]

def field (fields : List Field) (name : String) : Option Bytes :=
  (fields.find? (fun field => decide (field.1 = ascii name))).map Prod.snd

def readBody (fields : List Field) (content : Bytes) : Option (Bytes × Bytes) := do
  let contentType ← field fields "Content-Type"
  let transfer ← field fields "Content-Transfer-Encoding"
  if transfer = ascii "quoted-printable" then
    let text ← decode content
    return (contentType, text)
  else none

def readPart (part : Bytes) : Option (Bytes × Bytes) := do
  let (fields, content) ← readEntity part
  readBody fields content

def multipart : Bytes := ascii "multipart/alternative; boundary="

def readBodies (fields : List Field) (body : Bytes) : Option (List (Bytes × Bytes)) := do
  let contentType ← field fields "Content-Type"
  if multipart.isPrefixOf contentType then
    (readParts (contentType.drop multipart.length) body).mapM readPart
  else
    let only ← readBody fields body
    return [only]

def plainType : String := "text/plain; charset=UTF-8"

def htmlType : String := "text/html; charset=UTF-8"

def expectedBodies (options : MessageOptions) : List (Bytes × Bytes) :=
  (if options.text = [] then [] else [(ascii plainType, ended (lineEnds options.text))]) ++
    (if options.html = [] then [] else [(ascii htmlType, ended (lineEnds options.html))])

def headNames (options : MessageOptions) : List String :=
  ["Date", "From", "To"] ++ (if options.replyTo.isSome then ["Reply-To"] else []) ++ ["Subject", "MIME-Version"]

def expectedNames (options : MessageOptions) : List String :=
  headNames options ++ ["Content-Type"] ++
    (if options.text ≠ [] ∧ options.html ≠ [] then [] else ["Content-Transfer-Encoding"])

def limitedNames : List String := ["From", "To", "Reply-To", "Subject"]

structure ReadBack (options : MessageOptions) (wire : Bytes) (fields : List Field) (body : Bytes) : Prop where
  lines : wire = fieldLines fields ++ crlf ++ body
  entity : readEntity wire = some (fields, body)
  names : fields.map Prod.fst = (expectedNames options).map ascii
  unbroken : ∀ field ∈ fields, Unbroken field.2
  limited : ∀ field ∈ fields, field.1 ∈ limitedNames.map ascii → (fieldLine field).length ≤ maximumHeaderBytes
  bodies : readBodies fields body = some (expectedBodies options)

theorem lower_hex_printable : ∀ n < 16, 0x20 ≤ (Strconv.lowerHex n).toNat := by decide

variable (sum : Bytes → Bytes)

theorem boundary_unbroken (message : Message) : Unbroken (message.boundary sum) := by
  refine unbroken_append _ (by decide) (unbroken_flat_map (fun b _ => unbroken_printable (fun c member => ?_)))
  obtain ⟨place, _, rfl⟩ := List.mem_map.mp member
  exact lower_hex_printable _ (Nat.mod_lt _ (by decide))

def headFields (message : Message) : List Field :=
  [(ascii "Date", message.date.format), (ascii "From", message.sender.string),
    (ascii "To", joined message.recipients)] ++
    message.replyTo.toList.map (fun reply => (ascii "Reply-To", reply.string)) ++
    [(ascii "Subject", encodeSubject message.subject), (ascii "MIME-Version", ascii "1.0")]

def partText (contentType : String) (body : Bytes) : Bytes :=
  fieldLines (partFields contentType) ++ crlf ++ writeQuotedPrintable body

theorem head_lines (message : Message) : message.head = fieldLines (headFields message) := by
  cases reply : message.replyTo <;> simp [Message.head, headFields, fieldLines, writeHeader, reply]

theorem write_multipart {message : Message} (valid : message.valid = true)
    (both : message.text ≠ [] ∧ message.html ≠ []) :
    message.writeRFC5322 sum = .ok (fieldLines (headFields message ++
      [(ascii "Content-Type", formatMediaType (message.boundary sum))]) ++ crlf ++
      delimited (message.boundary sum) [partText plainType message.text, partText htmlType message.html]) := by
  rw [Message.writeRFC5322, valid]
  simp only [Bool.not_true, Bool.false_eq_true, if_false, if_pos both, head_lines]
  simp [fieldLines, writeHeader, writePart, delimited, partText, partFields, plainType, htmlType]

theorem write_text {message : Message} (valid : message.valid = true) (text : message.text ≠ [])
    (html : message.html = []) :
    message.writeRFC5322 sum = .ok (fieldLines (headFields message ++ partFields plainType) ++ crlf ++
      writeQuotedPrintable message.text) := by
  rw [Message.writeRFC5322, valid]
  simp only [Bool.not_true, Bool.false_eq_true, if_false,
    if_neg (fun both => absurd html (And.right both)), if_pos text,
    head_lines]
  simp [fieldLines, writeHeader, partFields, plainType]

theorem write_html {message : Message} (valid : message.valid = true) (text : message.text = [])
    (html : message.html ≠ []) :
    message.writeRFC5322 sum = .ok (fieldLines (headFields message ++ partFields htmlType) ++ crlf ++
      writeQuotedPrintable message.html) := by
  rw [Message.writeRFC5322, valid]
  simp only [Bool.not_true, Bool.false_eq_true, if_false, if_neg (fun both => absurd text (And.left both)),
    if_neg (not_not.mpr text), if_pos html, head_lines]
  simp [fieldLines, writeHeader, partFields, htmlType]

theorem validated_unbroken {parseAddress : Bytes → Option Address} {part : Part} {a : Address}
    (valid : validateAddress parseAddress part a = .ok ()) : Unbroken a.string := by
  rw [validateAddress] at valid
  split at valid
  · cases valid
  rename_i checked
  simp only [Bool.not_eq_true', not_or, Bool.not_eq_false] at checked
  exact address_unbroken (header_value_unbroken checked.2.1) (header_value_unbroken checked.2.2)

theorem line_length {name : String} (label : String) {value : Bytes} (same : ascii label = ascii name ++ ascii ": ") :
    (fieldLine (ascii name, value)).length = (ascii label).length + value.length := by
  rw [same, fieldLine, List.length_append]

theorem read_body (contentType : String) (body : Bytes) :
    readBody (partFields contentType) (writeQuotedPrintable body) =
    some (ascii contentType, ended (lineEnds body)) := by
  have first : field (partFields contentType) "Content-Type" = some (ascii contentType) := rfl
  have second : field (partFields contentType) "Content-Transfer-Encoding" = some (ascii "quoted-printable") := rfl
  rw [readBody, first, second, decode_written]
  rfl

theorem field_behind {front : List Field} (last : List Field) {name : String}
    (absent : ∀ field ∈ front, field.1 ≠ ascii name) : field (front ++ last) name = field last name := by
  have none : front.find? (fun field => decide (field.1 = ascii name)) = none := by
    rw [List.find?_eq_none]
    intro field member
    simpa using absent field member
  rw [field, List.find?_append, none, Option.none_or, field]

section

variable {parseAddress : Bytes → Option Address} {now : Date} {options : MessageOptions} {message : Message}
  (accepted : Accepted parseAddress now options message)

include accepted

theorem head_unbroken : ∀ field ∈ headFields message, Unbroken field.2 := by
  have built := accepted.built
  intro field member
  simp only [headFields, List.mem_append, List.mem_cons, List.not_mem_nil, or_false, List.mem_map, Option.mem_toList]
    at member
  rcases member with ((rfl | rfl | rfl) | ⟨reply, given, rfl⟩) | rfl | rfl
  · exact date_unbroken
  · rw [built]
    exact validated_unbroken accepted.sender
  · rw [built]
    refine unbroken_join (by decide) (fun part inside => ?_)
    obtain ⟨recipient, known, rfl⟩ := List.mem_map.mp inside
    exact validated_unbroken (accepted.recipients recipient known)
  · rw [built] at given
    exact validated_unbroken (accepted.replyTo reply given)
  · rw [built]
    exact encode_subject_unbroken (header_value_unbroken accepted.subject)
  · decide

theorem head_limited : ∀ field ∈ headFields message, field.1 ∈ limitedNames.map ascii →
    (fieldLine field).length ≤ maximumHeaderBytes := by
  have rendered := accepted.rendered
  rw [Message.validateRenderedHeaders] at rendered
  by_cases sender : maximumHeaderBytes < (ascii "From: ").length + message.sender.string.length
  · rw [if_pos sender] at rendered
    cases rendered
  by_cases recipients : maximumHeaderBytes < (ascii "To: ").length + (joined message.recipients).length
  · rw [if_neg sender, if_pos recipients] at rendered
    cases rendered
  by_cases reply : message.replyTo.any (fun reply =>
      decide (maximumHeaderBytes < (ascii "Reply-To: ").length + reply.string.length)) = true
  · rw [if_neg sender, if_neg recipients, if_pos reply] at rendered
    cases rendered
  by_cases subject : maximumHeaderBytes < (ascii "Subject: ").length + (encodeSubject message.subject).length
  · rw [if_neg sender, if_neg recipients, if_neg reply, if_pos subject] at rendered
    cases rendered
  intro field member limited
  simp only [headFields, List.mem_append, List.mem_cons, List.not_mem_nil, or_false, List.mem_map, Option.mem_toList]
    at member
  rcases member with ((rfl | rfl | rfl) | ⟨address, given, rfl⟩) | rfl | rfl
  · exact absurd limited (show ascii "Date" ∉ limitedNames.map ascii by decide)
  · rw [line_length "From: " rfl]
    exact Nat.le_of_not_lt sender
  · rw [line_length "To: " rfl]
    exact Nat.le_of_not_lt recipients
  · rw [given, Option.any_some, decide_eq_true_eq] at reply
    rw [line_length "Reply-To: " rfl]
    exact Nat.le_of_not_lt reply
  · rw [line_length "Subject: " rfl]
    exact Nat.le_of_not_lt subject
  · exact absurd limited (by decide)

theorem head_names : (headFields message).map Prod.fst = (headNames options).map ascii := by
  have built := accepted.built
  have same : message.replyTo = options.replyTo := by rw [built]
  rw [headFields, headNames, same]
  cases options.replyTo <;> rfl

theorem head_known : ∀ field ∈ headFields message, Named field.1 ∧ field.1 ≠ ascii "Content-Type" ∧
    field.1 ≠ ascii "Content-Transfer-Encoding" := by
  have all : ∀ name ∈ ["Date", "From", "To", "Reply-To", "Subject", "MIME-Version"], Named (ascii name) ∧
      ascii name ≠ ascii "Content-Type" ∧ ascii name ≠ ascii "Content-Transfer-Encoding" := by
    decide
  intro field member
  have inside : field.1 ∈ (headNames options).map ascii := by
    rw [← head_names accepted]
    exact List.mem_map_of_mem member
  obtain ⟨name, listed, same⟩ := List.mem_map.mp inside
  rw [← same]
  apply all
  rw [headNames] at listed
  split at listed
  · exact listed
  have smaller : (["Date", "From", "To"] ++ [] ++ ["Subject", "MIME-Version"]).Sublist
      ["Date", "From", "To", "Reply-To", "Subject", "MIME-Version"] := by
    decide
  exact smaller.mem listed

theorem read_back {last : List Field} {body : Bytes} (names : last.map Prod.fst = (["Content-Type"] ++
      (if options.text ≠ [] ∧ options.html ≠ [] then [] else ["Content-Transfer-Encoding"])).map ascii)
    (unbroken : ∀ field ∈ last, Unbroken field.2)
    (bodies : readBodies (headFields message ++ last) body = some (expectedBodies options)) :
    ReadBack options (fieldLines (headFields message ++ last) ++ crlf ++ body) (headFields message ++ last) body := by
  have listed : ∀ field ∈ last, field.1 = ascii "Content-Type" ∨ field.1 = ascii "Content-Transfer-Encoding" := by
    intro field member
    have inside := List.mem_map_of_mem (f := Prod.fst) member
    rw [names] at inside
    split at inside
    · exact .inl (List.mem_singleton.mp inside)
    · simpa using inside
  have whole : ∀ field ∈ headFields message ++ last, Unbroken field.2 := by
    intro field member
    rcases List.mem_append.mp member with front | behind
    · exact head_unbroken accepted field front
    · exact unbroken field behind
  refine ⟨rfl, read_entity _ body ?_ whole, ?_, whole, ?_, bodies⟩
  · intro field member
    rcases List.mem_append.mp member with front | behind
    · exact (head_known accepted field front).1
    · rcases listed field behind with same | same
      · rw [same]
        decide
      · rw [same]
        decide
  · rw [List.map_append, head_names accepted, names, expectedNames, List.append_assoc, ← List.map_append]
  · intro field member limited
    rcases List.mem_append.mp member with front | behind
    · exact head_limited accepted field front limited
    · rcases listed field behind with same | same
      · rw [same] at limited
        exact absurd limited (by decide)
      · rw [same] at limited
        exact absurd limited (by decide)

theorem read_single (contentType : String) (body : Bytes) (single : multipart.isPrefixOf (ascii contentType) = false) :
    readBodies (headFields message ++ partFields contentType) (writeQuotedPrintable body) =
      some [(ascii contentType, ended (lineEnds body))] := by
  have known := head_known accepted
  have behind : ∀ name, name = "Content-Type" ∨ name = "Content-Transfer-Encoding" →
      field (headFields message ++ partFields contentType) name = field (partFields contentType) name := by
    rintro name (rfl | rfl)
    · exact field_behind _ (fun field member => (known field member).2.1)
    · exact field_behind _ (fun field member => (known field member).2.2)
  have only := read_body contentType body
  rw [readBody] at only
  rw [readBodies, readBody, behind _ (.inl rfl), behind _ (.inr rfl), only,
    show field (partFields contentType) "Content-Type" = some (ascii contentType) from rfl]
  simp only [Option.bind_eq_bind, Option.bind_some, single, Bool.false_eq_true, if_false]
  rfl

end

theorem part_read {contentType : String} (unbroken : Unbroken (ascii contentType)) :
    readPart (partText contentType body) = some (ascii contentType, ended (lineEnds body)) := by
  have entity := read_entity (partFields contentType) (writeQuotedPrintable body)
    (by
      intro field member
      simp only [partFields, List.mem_cons, List.not_mem_nil, or_false] at member
      rcases member with rfl | rfl
      · exact (by decide : Named (ascii "Content-Type"))
      · decide)
    (by
      intro field member
      simp only [partFields, List.mem_cons, List.not_mem_nil, or_false] at member
      rcases member with rfl | rfl
      · exact unbroken
      · decide)
  rw [readPart, partText, entity]
  exact read_body contentType body

theorem part_clear {boundary : Bytes} {contentType : String} {body : Bytes} (unbroken : Unbroken boundary)
    (clear : ¬ boundary <:+: writeQuotedPrintable body)
    (undashed : index (ascii "--") (fieldLine (ascii "Content-Type", ascii contentType)) = none) :
    ¬ (ascii "--" ++ boundary) <:+: partText contentType body ∧ (partText contentType body).getLast? = some lf := by
  have whole : Unbroken (ascii "--" ++ boundary) := unbroken_append _ (by decide) unbroken
  have dashes : ∀ line, (ascii "--" ++ boundary) <:+: line → ascii "--" <:+: line :=
    fun line inside => (List.prefix_append _ _).isInfix.trans inside
  refine ⟨fun inside => ?_, ?_⟩
  · have shape : partText contentType body = fieldLine (ascii "Content-Type", ascii contentType) ++ crlf ++
        (fieldLine (ascii "Content-Transfer-Encoding", ascii "quoted-printable") ++ crlf ++
          ([] ++ crlf ++ writeQuotedPrintable body)) := by
      simp [partText, partFields, fieldLines]
    rw [shape] at inside
    rcases infix_lines _ whole inside with first | inside
    · exact index_none undashed (dashes _ first)
    rcases infix_lines _ whole inside with second | inside
    · exact index_none (by decide) (dashes _ second)
    rcases infix_lines _ whole inside with none | inside
    · exact index_none (by decide) (dashes _ none)
    · exact clear ((List.suffix_append _ _).isInfix.trans inside)
  · obtain ⟨front, ending⟩ := written_ended body
    rw [partText, ending, List.getLast?_append, List.getLast?_append]
    rfl

theorem subject_read {subject : Bytes} (valid : validHeaderValue subject = true) :
    Mime.decodeHeader (encodeSubject subject) = some subject ↔
      (∃ r ∈ runes subject, 0x7E < r) ∨ Mime.holdsWord subject = false := by
  rw [validHeaderValue, Bool.and_eq_true, List.all_eq_true] at valid
  have printable : ∀ r ∈ runes subject, 0x20 ≤ r ∧ r ≠ 0x7F := by
    intro r member
    have checked := valid.2 r member
    simp only [Bool.not_eq_true', decide_eq_false_iff_not] at checked
    omega
  rw [encodeSubject]
  by_cases other : (runes subject).any foreign = true
  · obtain ⟨r, member, outside⟩ := List.any_eq_true.mp other
    rw [foreign, decide_eq_true_eq] at outside
    have shown := printable r member
    have needed : Mime.needsEncoding subject = true := by
      rw [Mime.needsEncoding, List.any_eq_true]
      exact ⟨r, member, decide_eq_true ⟨outside, by omega⟩⟩
    rw [if_pos other]
    exact iff_of_true (Mime.decode_q_encode (by decide) (by decide) needed) (.inl ⟨r, member, by omega⟩)
  · have none : ¬ ∃ r ∈ runes subject, 0x7E < r := by
      rintro ⟨r, member, above⟩
      exact other (List.any_eq_true.mpr ⟨r, member, decide_eq_true (.inr above)⟩)
    have small : ∀ b ∈ subject, b.toNat < 0x80 := by
      refine small_runes_bytes fun r member => ?_
      by_contra large
      exact none ⟨r, member, by omega⟩
    rw [if_neg other, Mime.decode_header_self small]
    exact (or_iff_right none).symm

theorem subject_field (message : Message) (last : List Field) :
    field (headFields message ++ last) "Subject" = some (encodeSubject message.subject) := by
  cases reply : message.replyTo with
  | none =>
    rw [headFields, reply]
    rfl
  | some address =>
    rw [headFields, reply]
    rfl

theorem read_multipart {parseAddress : Bytes → Option Address} {now : Date} {options : MessageOptions}
    {message : Message} (accepted : Accepted parseAddress now options message) (boundary : Bytes)
    (filled : boundary ≠ []) (unbroken : Unbroken boundary) {text html : Bytes}
    (clear : ¬ boundary <:+: writeQuotedPrintable text ∧ ¬ boundary <:+: writeQuotedPrintable html) :
    readBodies (headFields message ++ [(ascii "Content-Type", formatMediaType boundary)])
      (delimited boundary [partText plainType text, partText htmlType html]) =
        some [(ascii plainType, ended (lineEnds text)), (ascii htmlType, ended (lineEnds html))] := by
  have behind := field_behind [(ascii "Content-Type", formatMediaType boundary)]
    (fun field member => (head_known accepted field member).2.1)
  have parts := read_delimited boundary filled unbroken [partText plainType text, partText htmlType html] (by
    intro part member
    simp only [List.mem_cons, List.not_mem_nil, or_false] at member
    rcases member with rfl | rfl
    · exact part_clear unbroken clear.1 (by decide)
    · exact part_clear unbroken clear.2 (by decide))
  have marked : multipart.isPrefixOf (formatMediaType boundary) = true := by
    rw [List.isPrefixOf_iff_prefix]
    exact List.prefix_append _ _
  have named : (formatMediaType boundary).drop multipart.length = boundary := List.drop_left
  rw [readBodies, behind,
    show field [(ascii "Content-Type", formatMediaType boundary)] "Content-Type" =
      some (formatMediaType boundary) from rfl]
  simp only [Option.bind_eq_bind, Option.bind_some, marked, if_true, named, parts]
  rw [List.mapM_cons, part_read text (by decide), List.mapM_cons, part_read html (by decide), List.mapM_nil]
  rfl

-- A written message is read back. Its subject is too, unless it is printable
-- ASCII and holds an encoded-word.
theorem message_round_trip (parseAddress : Bytes → Option Address) (sum : Bytes → Bytes) (now : Date)
    (options : MessageOptions) (message : Message) (accepted : newMessage parseAddress now options = .ok message)
    (clear : options.text ≠ [] → options.html ≠ [] → ¬ message.boundary sum <:+: writeQuotedPrintable options.text ∧
      ¬ message.boundary sum <:+: writeQuotedPrintable options.html) :
    ∃ wire fields body, message.writeRFC5322 sum = .ok wire ∧ ReadBack options wire fields body ∧
      ((∃ value, field fields "Subject" = some value ∧ Mime.decodeHeader value = some options.subject) ↔
        (∃ r ∈ runes options.subject, 0x7E < r) ∨ Mime.holdsWord options.subject = false) := by
  have known := new_message_accepted accepted
  have valid : message.valid = true := by rw [known.built]
  have sameText : message.text = options.text := by rw [known.built]
  have sameHtml : message.html = options.html := by rw [known.built]
  have sameSubject : message.subject = options.subject := by rw [known.built]
  have subject : ∀ last, (∃ value, field (headFields message ++ last) "Subject" = some value ∧
      Mime.decodeHeader value = some options.subject) ↔
        (∃ r ∈ runes options.subject, 0x7E < r) ∨ Mime.holdsWord options.subject = false := by
    intro last
    rw [subject_field, sameSubject, ← subject_read known.subject]
    simp
  by_cases text : options.text = []
  · have html : options.html ≠ [] := known.bodies.resolve_left (not_not.mpr text)
    have written := write_html sum valid (sameText.trans text) (sameHtml ▸ html)
    have bodies := read_single known htmlType options.html (by decide)
    rw [sameHtml] at written
    refine ⟨_, _, _, written, read_back known ?_ ?_ ?_, subject _⟩
    · rw [if_neg (fun both => both.1 text)]
      rfl
    · decide
    · rw [bodies, expectedBodies, if_pos text, if_neg html]
      rfl
  · by_cases html : options.html = []
    · have written := write_text sum valid (sameText ▸ text) (sameHtml.trans html)
      have bodies := read_single known plainType options.text (by decide)
      rw [sameText] at written
      refine ⟨_, _, _, written, read_back known ?_ ?_ ?_, subject _⟩
      · rw [if_neg (fun both => both.2 html)]
        rfl
      · decide
      · rw [bodies, expectedBodies, if_neg text, if_pos html]
        rfl
    · have written := write_multipart sum valid ⟨sameText ▸ text, sameHtml ▸ html⟩
      have unbroken := boundary_unbroken sum message
      have bodies := read_multipart known (message.boundary sum) (List.append_ne_nil_of_left_ne_nil (by decide) _)
        unbroken (clear text html)
      rw [sameText, sameHtml] at written
      refine ⟨_, _, _, written, read_back known ?_ ?_ ?_, subject _⟩
      · rw [if_pos ⟨text, html⟩]
        rfl
      · intro field member
        rw [List.mem_singleton.mp member]
        exact unbroken_append _ (by decide) unbroken
      · rw [bodies, expectedBodies, if_neg text, if_neg html]
        rfl

def sampleDate : Date := ⟨2, 8, 8, 2026, 12, 34, 56, -10800⟩

def sampleOptions (subject : Bytes) : MessageOptions := {
  sender := ⟨ascii "GoForge", ascii "sender@example.com"⟩
  recipients := [⟨[], ascii "ada@example.com"⟩]
  replyTo := none
  subject := subject
  text := ascii "Hello\n.World"
  html := ascii "<p>Hi</p>"
  date := some sampleDate }

def sampleMessage (subject : Bytes) : Message := {
  sender := ⟨ascii "GoForge", ascii "sender@example.com"⟩
  recipients := [⟨[], ascii "ada@example.com"⟩]
  replyTo := none
  subject := subject
  text := ascii "Hello\n.World"
  html := ascii "<p>Hi</p>"
  date := sampleDate
  valid := true }

def sampleParse (address : Bytes) : Option Address := some ⟨[], address⟩

def sampleSum (_ : Bytes) : Bytes := List.replicate 32 0xAB

theorem message_round_trip_sample :
    newMessage sampleParse sampleDate (sampleOptions (ascii "Why =?")) = .ok (sampleMessage (ascii "Why =?")) ∧
      ∃ wire fields body, (sampleMessage (ascii "Why =?")).writeRFC5322 sampleSum = .ok wire ∧
        ReadBack (sampleOptions (ascii "Why =?")) wire fields body ∧
        ∃ value, field fields "Subject" = some value ∧ Mime.decodeHeader value = some (ascii "Why =?") := by
  have accepted : newMessage sampleParse sampleDate (sampleOptions (ascii "Why =?")) =
      .ok (sampleMessage (ascii "Why =?")) := by rfl
  obtain ⟨wire, fields, body, written, read, subject⟩ := message_round_trip sampleParse sampleSum sampleDate
    (sampleOptions (ascii "Why =?")) _ accepted
      (fun _ _ => ⟨index_none (by decide +kernel), index_none (by decide +kernel)⟩)
  exact ⟨accepted, wire, fields, body, written, read, subject.mpr (.inr (by decide))⟩

theorem encoded_looking_subject :
    newMessage sampleParse sampleDate (sampleOptions (ascii "=?UTF-8?q?x?=")) =
        .ok (sampleMessage (ascii "=?UTF-8?q?x?=")) ∧
      (((sampleMessage (ascii "=?UTF-8?q?x?=")).writeRFC5322 sampleSum).toOption.bind readEntity).bind
          (fun found => field found.1 "Subject") = some (ascii "=?UTF-8?q?x?=") ∧
      Mime.holdsWord (ascii "=?UTF-8?q?x?=") = true ∧ Mime.decodeHeader (ascii "=?UTF-8?q?x?=") = some (ascii "x") :=
  ⟨by rfl, by decide +kernel, by decide +kernel, by decide +kernel⟩

end Goforge.Mail
