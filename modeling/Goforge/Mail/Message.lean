import Goforge.Lib.Rfc5322
import Goforge.Lib.Strconv

set_option autoImplicit false

namespace Goforge.Mail

open GoString QuotedPrintable Rfc5322

-- netmail.Address
structure Address where
  name : Bytes
  address : Bytes
  deriving DecidableEq

-- A time.Time as its calendar fields in its own zone.
structure Date where
  weekday : Fin 7
  day : Nat
  month : Fin 12
  year : Int
  hour : Nat
  minute : Nat
  second : Nat
  offset : Int
  deriving DecidableEq

def padded (width n : Nat) : Bytes := List.replicate (width - (decimal n).length) (byte '0') ++ decimal n

def signed (n : Int) : Bytes := if n < 0 then ascii "-" else []

def weekdays : List String := ["Sun", "Mon", "Tue", "Wed", "Thu", "Fri", "Sat"]

def months : List String := ["Jan", "Feb", "Mar", "Apr", "May", "Jun", "Jul", "Aug", "Sep", "Oct", "Nov", "Dec"]

def zone (offset : Int) : Bytes :=
  let minutes := offset.tdiv 60
  (if minutes < 0 then ascii "-" else ascii "+") ++ padded 2 (minutes.natAbs / 60) ++ padded 2 (minutes.natAbs % 60)

-- time.Time.Format with time.RFC1123Z
def Date.format (date : Date) : Bytes :=
  ascii (weekdays.getD date.weekday "") ++ ascii ", " ++ padded 2 date.day ++ ascii " " ++
    ascii (months.getD date.month "") ++ ascii " " ++ signed date.year ++ padded 4 date.year.natAbs ++ ascii " " ++
    padded 2 date.hour ++ ascii ":" ++ padded 2 date.minute ++ ascii ":" ++ padded 2 date.second ++ ascii " " ++
    zone date.offset

def isVchar (r : Nat) : Bool := decide (0x21 ≤ r ∧ r ≤ 0x7E) || decide (0x80 ≤ r)

def isWSP (r : Nat) : Bool := decide (r = 0x20 ∨ r = 0x09)

def isQtext (r : Nat) : Bool := decide (r ≠ 0x5C ∧ r ≠ 0x22) && isVchar r

def isAtext (r : Nat) : Bool := !((ascii "().<>[]:;@\\,\"").map UInt8.toNat).contains r && isVchar r

def quoteString (text : Bytes) : Bytes :=
  [dquote] ++ (runes text).flatMap (fun r =>
    if isQtext r || isWSP r then encodeRune r else if isVchar r then backslash :: encodeRune r else []) ++ [dquote]

-- The loop of Address.String that looks for a byte that has to be quoted. Every
-- byte of a longer rune is atext.
def quoteLocal : Option UInt8 → Bytes → Bool
  | _, [] => false
  | before, b :: rest =>
    if isAtext b.toNat then quoteLocal (some b) rest
    else if b = byte '.' ∧ before ≠ none ∧ before ≠ some (byte '.') ∧ rest ≠ [] then quoteLocal (some b) rest
    else true

def encodedWordSpecials : Bytes := ascii "\"#$%&'(),.:;<>@[]^`\x7b|\x7d~"

-- netmail.Address.String
def Address.string (a : Address) : Bytes :=
  let (part, domain) := (cutLast (byte '@') a.address).getD (a.address, [])
  let part := if quoteLocal none part then quoteString part else part
  let s := ascii "<" ++ part ++ ascii "@" ++ domain ++ ascii ">"
  if a.name = [] then s
  else if (runes a.name).all (fun r => (isVchar r || isWSP r) && decide (r < 0x80)) then
    quoteString a.name ++ ascii " " ++ s
  else if a.name.any (fun b => encodedWordSpecials.contains b) then
    Mime.bEncode (ascii "utf-8") a.name ++ ascii " " ++ s
  else Mime.qEncode (ascii "utf-8") a.name ++ ascii " " ++ s

def maximumRecipients : Nat := 100

def maximumHeaderBytes : Nat := 998

def maximumBodyBytes : Nat := 4 * 2 ^ 20

inductive Part
  | sender
  | recipients
  | replyTo
  | subject
  | body
  deriving DecidableEq

-- ErrInvalidMessage alone, or a MessageError around it.
inductive MailError
  | invalidMessage
  | messageError (part : Part)
  deriving DecidableEq

def invalid {α : Type} (part : Part) : Except MailError α := .error (.messageError part)

structure MessageOptions where
  sender : Address
  recipients : List Address
  replyTo : Option Address
  subject : Bytes
  text : Bytes
  html : Bytes
  date : Option Date
  deriving DecidableEq

structure Message where
  sender : Address
  recipients : List Address
  replyTo : Option Address
  subject : Bytes
  text : Bytes
  html : Bytes
  date : Date
  valid : Bool
  deriving DecidableEq

def validHeaderValue (value : Bytes) : Bool :=
  validUtf8 value && (runes value).all (fun r => !decide (r < 0x20 ∨ r = 0x7F))

def validBody (value : Bytes) : Bool := validUtf8 value && !value.contains 0

-- A character that encodeSubject does not leave as it is.
def foreign (r : Nat) : Bool := decide (r < 0x20 ∨ 0x7E < r)

def encodeSubject (subject : Bytes) : Bytes :=
  if (runes subject).any foreign then Mime.qEncode (ascii "UTF-8") subject else subject

def joined (recipients : List Address) : Bytes := join (ascii ", ") (recipients.map Address.string)

def Message.validateRenderedHeaders (message : Message) : Except MailError Unit :=
  if maximumHeaderBytes < (ascii "From: ").length + message.sender.string.length then invalid .sender
  else if maximumHeaderBytes < (ascii "To: ").length + (joined message.recipients).length then invalid .recipients
  else if message.replyTo.any (fun reply =>
      decide (maximumHeaderBytes < (ascii "Reply-To: ").length + reply.string.length)) then invalid .replyTo
  else if maximumHeaderBytes < (ascii "Subject: ").length + (encodeSubject message.subject).length then invalid .subject
  else .ok ()

section

-- netmail.ParseAddress
variable (parseAddress : Bytes → Option Address)

def validateAddress (part : Part) (address : Address) : Except MailError Unit :=
  if address.address = [] ∨ !validHeaderValue address.address ∨ !validHeaderValue address.name then invalid part
  else if parseAddress address.address ≠ some ⟨[], address.address⟩ then invalid part
  else if (runes address.address).any (fun r => decide (0x7E < r)) then invalid part
  else .ok ()

-- now is what time.Now gives.
def newMessage (now : Date) (options : MessageOptions) : Except MailError Message := do
  validateAddress parseAddress .sender options.sender
  if options.recipients.length = 0 ∨ maximumRecipients < options.recipients.length then
    invalid .recipients
  options.recipients.forM (validateAddress parseAddress .recipients)
  options.replyTo.forM (validateAddress parseAddress .replyTo)
  if options.subject = [] ∨ !validHeaderValue options.subject then
    invalid .subject
  if !validBody options.text ∨ !validBody options.html ∨
      (maximumBodyBytes : Int) - options.html.length < options.text.length then
    invalid .body
  if options.text = [] ∧ options.html = [] then
    invalid .body
  let message : Message := {
    sender := options.sender, recipients := options.recipients, replyTo := options.replyTo, subject := options.subject,
    text := options.text, html := options.html, date := options.date.getD now, valid := true }
  message.validateRenderedHeaders
  return message

end

def normalizeCRLF (value : Bytes) : Bytes :=
  replaceAll [lf] crlf (replaceAll [cr] [lf] (replaceAll crlf [lf] value))

def writeQuotedPrintable (body : Bytes) : Bytes :=
  encode (normalizeCRLF body) ++ (if crlf.isSuffixOf (normalizeCRLF body) then [] else crlf)

def writeHeader (name : String) (value : Bytes) : Bytes := fieldLine (ascii name, value) ++ crlf

def writePart (boundary : Bytes) (contentType : String) (body : Bytes) : Bytes :=
  ascii "--" ++ boundary ++ crlf ++ writeHeader "Content-Type" (ascii contentType) ++
    writeHeader "Content-Transfer-Encoding" (ascii "quoted-printable") ++ crlf ++ writeQuotedPrintable body

def Message.head (message : Message) : Bytes :=
  writeHeader "Date" message.date.format ++ writeHeader "From" message.sender.string ++
    writeHeader "To" (joined message.recipients) ++
    (match message.replyTo with
      | none => []
      | some reply => writeHeader "Reply-To" reply.string) ++
    writeHeader "Subject" (encodeSubject message.subject) ++ writeHeader "MIME-Version" (ascii "1.0")

section

-- The SHA-256 sum.
variable (sum : Bytes → Bytes)

def Message.boundary (message : Message) : Bytes :=
  ascii "goforge-" ++ Strconv.hexBytes ((sum (message.sender.address ++
    message.recipients.flatMap (fun recipient => 0 :: recipient.address) ++
    (0 :: message.subject ++ 0 :: message.text ++ 0 :: message.html))).take 18)

-- mime.FormatMediaType for multipart/alternative: a boundary is a token, which
-- is not quoted.
def formatMediaType (boundary : Bytes) : Bytes := ascii "multipart/alternative; boundary=" ++ boundary

-- What WriteRFC5322 hands to the writer. The buffer before it takes every write.
def Message.writeRFC5322 (message : Message) : Except MailError Bytes :=
  if !message.valid then .error .invalidMessage
  else
    let head := message.head
    let single := fun contentType body =>
      writeHeader "Content-Type" (ascii contentType) ++
        writeHeader "Content-Transfer-Encoding" (ascii "quoted-printable") ++ crlf ++ writeQuotedPrintable body
    if message.text ≠ [] ∧ message.html ≠ [] then
      let boundary := message.boundary sum
      .ok (head ++ (writeHeader "Content-Type" (formatMediaType boundary) ++ crlf ++
        writePart boundary "text/plain; charset=UTF-8" message.text ++
        writePart boundary "text/html; charset=UTF-8" message.html ++ (ascii "--" ++ boundary ++ ascii "--" ++ crlf)))
    else if message.text ≠ [] then .ok (head ++ single "text/plain; charset=UTF-8" message.text)
    else if message.html ≠ [] then .ok (head ++ single "text/html; charset=UTF-8" message.html)
    else .ok head

end

end Goforge.Mail
