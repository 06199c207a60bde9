import Goforge.Mail.Message

set_option autoImplicit false

namespace Goforge.Mail

open GoString QuotedPrintable Rfc5322

theorem decimal_unbroken (n : Nat) : Unbroken (decimal n) :=
  unbroken_printable (fun b member => by
    have digit := (within_range _ _ _).mp (decimal_all_digits n b member)
    simp [byte] at digit
    omega)

theorem padded_unbroken (width n : Nat) : Unbroken (padded width n) := by
  refine unbroken_append _ (fun b member => ?_) (decimal_unbroken n)
  rw [List.eq_of_mem_replicate member]
  decide

theorem weekday_unbroken : ∀ day : Fin 7, Unbroken (ascii (weekdays.getD day "")) := by decide

theorem month_unbroken : ∀ month : Fin 12, Unbroken (ascii (months.getD month "")) := by decide

theorem zone_unbroken (offset : Int) : Unbroken (zone offset) := by
  refine unbroken_append _ (unbroken_append _ ?_ (padded_unbroken _ _)) (padded_unbroken _ _)
  split <;> decide

theorem between_unbroken {left : Bytes} (middle : Bytes) {right : Bytes} (first : Unbroken left)
    (second : Unbroken middle) (third : Unbroken right) : Unbroken (left ++ middle ++ right) :=
  unbroken_append _ (unbroken_append _ first second) third

theorem date_unbroken {date : Date} : Unbroken date.format := by
  have sign : Unbroken (signed date.year) := by
    rw [signed]
    split <;> decide
  have day := between_unbroken (ascii ", ") (weekday_unbroken date.weekday) (by decide) (padded_unbroken 2 date.day)
  have month := between_unbroken (ascii " ") day (by decide) (month_unbroken date.month)
  have year := unbroken_append _ (between_unbroken (ascii " ") month (by decide) sign)
    (padded_unbroken 4 date.year.natAbs)
  have hour := between_unbroken (ascii " ") year (by decide) (padded_unbroken 2 date.hour)
  have minute := between_unbroken (ascii ":") hour (by decide) (padded_unbroken 2 date.minute)
  have second := between_unbroken (ascii ":") minute (by decide) (padded_unbroken 2 date.second)
  exact between_unbroken (ascii " ") second (by decide) (zone_unbroken date.offset)

theorem header_value_unbroken {value : Bytes} (valid : validHeaderValue value = true) : Unbroken value := by
  rw [validHeaderValue, Bool.and_eq_true, List.all_eq_true] at valid
  refine unbroken_printable (fun b member => ?_)
  by_cases low : b.toNat < 0x80
  · have rune := valid.2 b.toNat (ascii_byte_rune low member)
    simp at rune
    omega
  · omega

theorem quote_string_unbroken (text : Bytes) : Unbroken (quoteString text) := by
  have visible : ∀ r, isVchar r = true ∨ isWSP r = true → Unbroken (encodeRune r) := by
    intro r shown b member
    have code := encode_rune_byte member
    simp only [isVchar, isWSP, Bool.or_eq_true, decide_eq_true_eq] at shown
    refine ⟨?_, ?_⟩ <;>
    · rintro rfl
      simp [cr, lf] at code
      omega
  refine unbroken_append _ (unbroken_append _ (by decide) (unbroken_flat_map (fun r _ => ?_))) (by decide)
  split
  · rename_i kept
    apply visible
    simp only [isQtext, Bool.or_eq_true, Bool.and_eq_true] at kept
    exact kept.imp_left And.right
  · split
    · rename_i shown
      exact unbroken_append [backslash] (by decide) (visible r (.inl shown))
    · exact fun b member => absurd member List.not_mem_nil

theorem cut_last_unbroken {text : Bytes} (unbroken : Unbroken text) :
    Unbroken ((cutLast (byte '@') text).getD (text, [])).1 ∧
    Unbroken ((cutLast (byte '@') text).getD (text, [])).2 := by
  cases found : cutLast (byte '@') text with
  | none => exact ⟨unbroken, fun b member => absurd member List.not_mem_nil⟩
  | some halves =>
    have parts := cut_last_parts found
    rw [parts] at unbroken
    exact ⟨fun b member => unbroken b (List.mem_append_left _ member),
      fun b member => unbroken b (List.mem_append_right _ (List.mem_cons_of_mem _ member))⟩

theorem address_unbroken {a : Address} (address : Unbroken a.address) (name : Unbroken a.name) : Unbroken a.string := by
  obtain ⟨first, second⟩ := cut_last_unbroken address
  rw [Address.string]
  generalize (cutLast (byte '@') a.address).getD (a.address, []) = parts at first second
  obtain ⟨part, domain⟩ := parts
  have quoted : Unbroken (if quoteLocal none part then quoteString part else part) := by
    split
    · exact quote_string_unbroken part
    · exact first
  have spec : Unbroken (ascii "<" ++ (if quoteLocal none part then quoteString part else part) ++ ascii "@" ++ domain ++
      ascii ">") :=
    unbroken_append _ (unbroken_append _ (unbroken_append _ (unbroken_append _ (by decide) quoted) (by decide))
      second) (by decide)
  have shown : ∀ front, Unbroken front → Unbroken (front ++ ascii " " ++ _) :=
    fun front whole => unbroken_append _ (unbroken_append _ whole (by decide)) spec
  simp only
  split
  · exact spec
  split
  · exact shown _ (quote_string_unbroken a.name)
  · split
    · exact shown _ (b_encode_unbroken (by decide) name)
    · exact shown _ (q_encode_unbroken (by decide) name)

theorem encode_subject_unbroken {subject : Bytes} (unbroken : Unbroken subject) : Unbroken (encodeSubject subject) := by
  rw [encodeSubject]
  split
  · exact q_encode_unbroken (by decide) unbroken
  · exact unbroken

structure Accepted (parseAddress : Bytes → Option Address) (now : Date) (options : MessageOptions) (message : Message) :
    Prop where
  sender : validateAddress parseAddress .sender options.sender = .ok ()
  recipients : ∀ recipient ∈ options.recipients, validateAddress parseAddress .recipients recipient = .ok ()
  replyTo : ∀ reply ∈ options.replyTo, validateAddress parseAddress .replyTo reply = .ok ()
  subject : validHeaderValue options.subject = true
  bodies : options.text ≠ [] ∨ options.html ≠ []
  rendered : message.validateRenderedHeaders = .ok ()
  built : message = {
    sender := options.sender, recipients := options.recipients, replyTo := options.replyTo, subject := options.subject,
    text := options.text, html := options.html, date := options.date.getD now, valid := true }

theorem bind_ok {α β : Type} (first : Except MailError α) (next : α → Except MailError β) (result : β)
    (passed : first >>= next = .ok result) : ∃ a, first = .ok a ∧ next a = .ok result := by
  cases first with
  | error err => cases passed
  | ok a => exact ⟨a, rfl, passed⟩

theorem passed_check {α : Type} {cond : Prop} [Decidable cond] {part : Part} {next : Unit → Except MailError α}
    {result : α} (passed : (if cond then invalid part >>= next else next ()) = .ok result) :
    ¬ cond ∧ next () = .ok result := by
  by_cases holds : cond
  · rw [if_pos holds] at passed
    cases passed
  · rw [if_neg holds] at passed
    exact ⟨holds, passed⟩

theorem for_m_ok {addresses : List Address} {check : Address → Except MailError Unit}
    (passed : addresses.forM check = .ok ()) : ∀ address ∈ addresses, check address = .ok () := by
  induction addresses with
  | nil => exact fun address member => absurd member List.not_mem_nil
  | cons first rest ih =>
    obtain ⟨_, here, later⟩ := bind_ok _ _ _ passed
    intro address member
    rcases List.mem_cons.mp member with rfl | inside
    · exact here
    · exact ih later address inside

theorem new_message_accepted {parseAddress : Bytes → Option Address} {now : Date} {options : MessageOptions}
    {message : Message} (accepted : newMessage parseAddress now options = .ok message) :
    Accepted parseAddress now options message := by
  dsimp only [newMessage] at accepted
  obtain ⟨_, sender, accepted⟩ := bind_ok _ _ _ accepted
  obtain ⟨_, accepted⟩ := passed_check accepted
  obtain ⟨_, recipients, accepted⟩ := bind_ok _ _ _ accepted
  obtain ⟨_, reply, accepted⟩ := bind_ok _ _ _ accepted
  obtain ⟨subject, accepted⟩ := passed_check accepted
  obtain ⟨_, accepted⟩ := passed_check accepted
  obtain ⟨bodies, accepted⟩ := passed_check accepted
  obtain ⟨_, rendered, accepted⟩ := bind_ok _ _ _ accepted
  cases accepted
  exact {
    sender := sender
    recipients := for_m_ok recipients
    replyTo := by
      intro member inside
      rw [Option.mem_def.mp inside] at reply
      exact reply
    subject := by simpa using (not_or.mp subject).2
    bodies := by
      by_contra none
      rw [not_or, not_not, not_not] at none
      exact bodies none
    rendered := rendered
    built := rfl }

end Goforge.Mail
