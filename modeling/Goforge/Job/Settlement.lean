import Goforge.Job.Worker

set_option autoImplicit false

namespace Goforge.Job.Worker

open GoTime Machine

section

variable (config : Config) (delivery : Delivery)

def Owning (beats : List Record) : Prop :=
  ∀ record ∈ beats, record = .heartbeat delivery.lease config.leaseDuration (true, none)

inductive Justified (returned : Option (Option HandlerErr)) : Call → Option ContextErr → List Record → Prop where
  | unknown (now : Option ContextErr) : Justified returned (.release delivery.lease) now []
  | malformed (now : Option ContextErr) :
      Justified returned (fail config delivery "malformed_payload" "job payload could not be decoded") now []
  | completed (result : Option HandlerErr) (before now : Option ContextErr) (late : Bool) (beats : List Record)
      (sent : returned = some result) (owning : Owning config delivery beats)
      (kept : before = some .deadlineExceeded → now = some .deadlineExceeded) :
      Justified returned
        (complete config delivery (if now = some .deadlineExceeded then some .deadlineExceeded else result)) now
        (.took result before late :: beats)

inductive Shape (returned : Option (Option HandlerErr)) (ended : Option ContextErr) : Phase → List Record → Prop where
  | starting : Shape returned ended .starting []
  | selecting (beats : List Record) (owning : Owning config delivery beats) : Shape returned ended .selecting beats
  | beating (beats : List Record) (owning : Owning config delivery beats) : Shape returned ended .beating beats
  | taken (result : Option HandlerErr) (before : Option ContextErr) (late : Bool) (beats : List Record)
      (sent : returned = some result) (owning : Owning config delivery beats)
      (kept : before = some .deadlineExceeded → ended = some .deadlineExceeded) :
      Shape returned ended (.taken result) (.took result before late :: beats)
  | settling (call : Call) (now : Option ContextErr) (log : List Record)
      (justified : Justified config delivery returned call now log) :
      Shape returned ended (.settling call) (.issued call now :: log)
  | cancelling (answer : Owned) (beats : List Record) (bad : answer ≠ (true, none))
      (owning : Owning config delivery beats) :
      Shape returned ended .cancelling (.heartbeat delivery.lease config.leaseDuration answer :: beats)
  | left (err : Option ProcessErr) (beats : List Record) (owning : Owning config delivery beats) :
      Shape returned ended (.exited err) beats
  | silenced (err : Option ProcessErr) (answer : Owned) (beats : List Record) (bad : answer ≠ (true, none))
      (owning : Owning config delivery beats) :
      Shape returned ended (.exited err) (.heartbeat delivery.lease config.leaseDuration answer :: beats)
  | settled (err : Option ProcessErr) (call : Call) (now : Option ContextErr) (log : List Record)
      (justified : Justified config delivery returned call now log) :
      Shape returned ended (.exited err) (.issued call now :: log)

structure Kept (s : State) : Prop where
  shape : Shape config delivery s.returned s.ended s.phase s.log
  timed : s.timedOut = true → s.ended = some .deadlineExceeded
  calm : ∀ err, s.returned = some (some err) → err.asPanic = true → err = .panicError

variable {config delivery}

variable {returned : Option (Option HandlerErr)} {call : Call} {now : Option ContextErr} {log : List Record} {s : State}
  {result : Option HandlerErr}

theorem justified_grows {returned' : Option (Option HandlerErr)}
    (grows : ∀ result, returned = some result → returned' = some result)
    (justified : Justified config delivery returned call now log) :
    Justified config delivery returned' call now log := by
  cases justified with
  | unknown => exact .unknown now
  | malformed => exact .malformed now
  | completed result before _ late beats sent owning kept =>
    exact .completed result before now late beats (grows result sent) owning kept

theorem shape_grows {returned' : Option (Option HandlerErr)} {ended ended' : Option ContextErr} {phase : Phase}
    (grows : ∀ result, returned = some result → returned' = some result)
    (stays : ∀ err, ended = some err → ended' = some err) (shape : Shape config delivery returned ended phase log) :
    Shape config delivery returned' ended' phase log := by
  cases shape with
  | starting => exact .starting
  | selecting _ owning => exact .selecting log owning
  | beating _ owning => exact .beating log owning
  | taken result before late beats sent owning kept =>
    exact .taken result before late beats (grows result sent) owning (fun expired => stays _ (kept expired))
  | settling call now rest justified =>
    exact .settling call now rest (justified_grows grows justified)
  | cancelling answer beats bad owning => exact .cancelling answer beats bad owning
  | left err _ owning => exact .left err log owning
  | silenced err answer beats bad owning => exact .silenced err answer beats bad owning
  | settled err call now rest justified =>
    exact .settled err call now rest (justified_grows grows justified)

theorem ended_stays {ended : Option ContextErr} (reason : ContextErr) {err : ContextErr} (already : ended = some err) :
    ended.or (some reason) = some err := by
  rw [already, Option.some_or]

theorem kept_ended (reason : ContextErr) (kept : Kept config delivery s) :
    Kept config delivery { s with ended := s.ended.or (some reason) } where
  shape := shape_grows (fun _ sent => sent) (fun _ already => ended_stays reason already) kept.shape
  timed late := ended_stays reason (kept.timed late)
  calm := kept.calm

theorem kept_returned (silent : s.returned = none)
    (calm : ∀ err, result = some err → err.asPanic = true → err = .panicError) (kept : Kept config delivery s) :
    Kept config delivery { s with returned := some result } where
  shape := by
    refine shape_grows ?_ (fun _ already => already) kept.shape
    intro earlier sent
    rw [silent] at sent
    cases sent
  timed := kept.timed
  calm err sent := calm err (Option.some.inj sent)

theorem around_kept {t : State} {event : Around} (kept : Kept config delivery s) (moved : s.around event = some t) :
    Kept config delivery t := by
  cases event with
  | handlerReturns result =>
    obtain ⟨⟨_, silent, calm⟩, ⟨⟩⟩ := Option.ite_none_right_eq_some.mp moved
    refine kept_returned silent ?_ kept
    intro err same panics
    rw [same, Option.any_some, panics] at calm
    cases calm
  | handlerPanics =>
    obtain ⟨⟨_, silent⟩, ⟨⟩⟩ := Option.ite_none_right_eq_some.mp moved
    exact kept_returned silent (fun err same _ => (Option.some.inj same).symm) kept
  | deadlineFires =>
    obtain ⟨_, ⟨⟩⟩ := Option.ite_none_right_eq_some.mp moved
    exact kept_ended _ kept
  | shutdown =>
    obtain rfl := Option.some.inj moved
    exact ⟨kept.shape, kept.timed, kept.calm⟩
  | shutdownReaches =>
    obtain ⟨_, ⟨⟩⟩ := Option.ite_none_right_eq_some.mp moved
    exact kept_ended _ kept
  | _ =>
    obtain ⟨_, ⟨⟩⟩ := Option.ite_none_right_eq_some.mp moved
    exact ⟨kept.shape, kept.timed, kept.calm⟩

theorem begin_kept (registry : Registry) (starting : s.phase = .starting) (kept : Kept config delivery s) :
    Kept config delivery (s.begin config delivery registry) := by
  have empty : s.log = [] := by
    have shape := kept.shape
    rw [starting] at shape
    generalize s.log = log at shape
    cases shape
    rfl
  have issued : ∀ call, Justified config delivery s.returned call s.ended [] → Kept config delivery (s.issue call) := by
    intro call justified
    refine ⟨?_, kept.timed, kept.calm⟩
    unfold State.issue
    rw [empty]
    exact .settling call s.ended [] justified
  unfold State.begin
  split
  · exact issued _ (.unknown s.ended)
  · split
    · refine ⟨.selecting _ ?_, kept.timed, kept.calm⟩
      rw [empty]
      exact fun _ member => nomatch member
    · exact issued _ (.malformed s.ended)

theorem take_kept (selecting : s.phase = .selecting) (sent : s.returned = some result) (kept : Kept config delivery s) :
    Kept config delivery { s with phase := .taken result, log := .took result s.ended s.passed :: s.log } := by
  have shape := kept.shape
  rw [selecting] at shape
  cases shape with
  | selecting _ owning =>
    exact ⟨.taken result s.ended s.passed s.log sent owning (fun expired => expired), kept.timed, kept.calm⟩

theorem exit_kept (err : Option ProcessErr) (waiting : s.phase = .selecting ∨ s.phase = .cancelling)
    (kept : Kept config delivery s) : Kept config delivery (s.exit err) := by
  refine ⟨?_, kept.timed, kept.calm⟩
  have shape := kept.shape
  rcases waiting with phase | phase
  · rw [phase] at shape
    cases shape with
    | selecting _ owning => exact .left err s.log owning
  · rw [phase] at shape
    generalize log : s.log = records at shape
    cases shape with
    | cancelling answer beats bad owning =>
      unfold State.exit
      rw [log]
      exact .silenced err answer beats bad owning

theorem complete_kept (taken : s.phase = .taken result) (kept : Kept config delivery s) :
    Kept config delivery (s.issue (complete config delivery (s.handlerErr result))) := by
  refine ⟨?_, kept.timed, kept.calm⟩
  have timeout : s.handlerErr result = if s.ended = some .deadlineExceeded then some .deadlineExceeded else result := by
    unfold State.handlerErr
    by_cases expired : s.ended = some .deadlineExceeded
    · rw [if_pos expired, if_pos (by rw [decide_eq_true expired, Bool.or_true])]
    · have early : s.timedOut = false := Bool.eq_false_iff.mpr (fun timed => expired (kept.timed timed))
      rw [if_neg expired, if_neg (by rw [early, decide_eq_false expired]; exact Bool.false_ne_true)]
  have shape := kept.shape
  rw [taken] at shape
  generalize log : s.log = records at shape
  cases shape with
  | taken _ before late beats sent owning stays =>
    unfold State.issue
    rw [log, timeout]
    exact .settling _ s.ended _ (.completed result before s.ended late beats sent owning stays)

theorem beaten_kept (answer : Owned) (beating : s.phase = .beating) (kept : Kept config delivery s) :
    Kept config delivery (s.beaten config delivery answer) := by
  have shape := kept.shape
  rw [beating] at shape
  cases shape with
  | beating _ owning =>
    have cancelled := fun err (already : s.ended = some err) => ended_stays .canceled already
    obtain ⟨owned, failure⟩ := answer
    cases failure with
    | some err =>
      refine ⟨.silenced _ (owned, some err) s.log ?_ owning, fun timed => cancelled _ (kept.timed timed), kept.calm⟩
      exact fun same => nomatch (Prod.mk.inj same).2
    | none =>
      cases owned with
      | false =>
        refine ⟨.cancelling (false, none) s.log ?_ owning, fun timed => cancelled _ (kept.timed timed), kept.calm⟩
        exact fun same => Bool.false_ne_true (Prod.mk.inj same).1
      | true =>
        refine ⟨.selecting _ ?_, kept.timed, kept.calm⟩
        exact List.forall_mem_cons.mpr ⟨rfl, owning⟩

theorem handler_ended_kept {err : ContextErr} (selecting : s.phase = .selecting) (ended : s.ended = some err)
    (kept : Kept config delivery s) : Kept config delivery (s.handlerEnded err) := by
  cases err with
  | canceled => exact exit_kept none (.inl selecting) kept
  | deadlineExceeded => exact ⟨kept.shape, fun _ => ended, kept.calm⟩

theorem answered_kept {err : Option ProcessErr} (settling : s.phase = .settling call) (kept : Kept config delivery s) :
    Kept config delivery (s.exit err) := by
  refine ⟨?_, kept.timed, kept.calm⟩
  have shape := kept.shape
  rw [settling] at shape
  generalize log : s.log = records at shape
  cases shape with
  | settling _ now rest justified =>
    unfold State.exit
    rw [log]
    exact .settled err call now rest justified

theorem step_kept {registry : Registry} {t : State} {event : Event} (kept : Kept config delivery s)
    (stepped : step config delivery registry s event = some t) : Kept config delivery t := by
  cases event with
  | around event => exact around_kept kept stepped
  | start =>
    simp only [step] at stepped
    split at stepped
    · rename_i starting
      cases stepped
      exact begin_kept registry starting kept
    · cases stepped
  | takeResult =>
    simp only [step] at stepped
    split at stepped
    · rename_i result selecting sent
      cases stepped
      exact take_kept selecting sent kept
    · rename_i cancelling _
      cases stepped
      exact exit_kept none (.inr cancelling) kept
    · cases stepped
  | takeTick =>
    simp only [step] at stepped
    split at stepped
    · rename_i selecting _
      cases stepped
      have shape := kept.shape
      rw [selecting] at shape
      cases shape with
      | selecting _ owning => exact ⟨.beating _ owning, kept.timed, kept.calm⟩
    · cases stepped
  | takeHandlerDone =>
    simp only [step] at stepped
    split at stepped
    · rename_i err selecting _ ended
      cases stepped
      exact handler_ended_kept selecting ended kept
    · cases stepped
  | takeCancellationDone =>
    simp only [step] at stepped
    split at stepped
    · rename_i selecting _
      cases stepped
      exact exit_kept _ (.inl selecting) kept
    · rename_i cancelling _
      cases stepped
      exact exit_kept _ (.inr cancelling) kept
    · cases stepped
  | takeBaseDone =>
    simp only [step] at stepped
    split at stepped
    · rename_i selecting _
      cases stepped
      exact exit_kept none (.inl selecting) kept
    · rename_i cancelling _
      cases stepped
      exact exit_kept none (.inr cancelling) kept
    · cases stepped
  | complete =>
    simp only [step] at stepped
    split at stepped
    · rename_i result taken
      cases stepped
      exact complete_kept taken kept
    · cases stepped
  | answer answer =>
    simp only [step] at stepped
    split at stepped
    · rename_i beating
      cases stepped
      exact beaten_kept answer beating kept
    · rename_i call settling
      cases stepped
      exact answered_kept settling kept
    · cases stepped

theorem reach_kept (registry : Registry) (s : State) (reached : Reach (process config delivery registry) s) :
    Kept config delivery s := by
  refine reach_invariant (Kept config delivery) ?_ (fun s event t kept => step_kept kept) reached
  rintro s rfl
  exact ⟨.starting, (fun timed => nomatch timed), (fun _ sent => nomatch sent)⟩

def Record.quiet : Record → Bool
  | .heartbeat _ _ answer => decide (answer = (true, none))
  | .took _ _ _ => true
  | .issued _ _ => false

theorem owning_quiet {beats : List Record} (owning : Owning config delivery beats) :
    ∀ record ∈ beats, record.quiet = true := by
  intro record member
  rw [owning record member]
  rfl

theorem justified_quiet (justified : Justified config delivery returned call now log) :
    ∀ record ∈ log, record.quiet = true := by
  cases justified with
  | completed result before _ late beats _ owning _ =>
    exact List.forall_mem_cons.mpr ⟨rfl, owning_quiet owning⟩
  | _ => exact fun _ member => nomatch member

def Record.isIssued : Record → Bool
  | .issued _ _ => true
  | _ => false

theorem filter_unissued (unissued : ∀ call now, .issued call now ∉ log) : log.filter Record.isIssued = [] := by
  refine List.filter_eq_nil_iff.mpr ?_
  intro record member issued
  cases record with
  | issued call now => exact unissued call now member
  | _ => cases issued

theorem owning_unissued {beats : List Record} (owning : Owning config delivery beats) (call : Call)
    (now : Option ContextErr) : .issued call now ∉ beats :=
  fun member => nomatch owning_quiet owning _ member

theorem kept_log (kept : Kept config delivery s) :
    (∀ call now, .issued call now ∉ s.log) ∨
    ∃ call now log, s.log = .issued call now :: log ∧ Justified config delivery s.returned call now log := by
  have shape := kept.shape
  generalize s.phase = phase, s.log = log at shape
  have after : ∀ (beats : List Record) (record : Record), Owning config delivery beats →
      (∀ call now, record ≠ .issued call now) → ∀ call now, .issued call now ∉ record :: beats := by
    intro beats record owning other call now member
    rcases List.mem_cons.mp member with same | earlier
    · exact other call now same.symm
    · exact owning_unissued owning call now earlier
  cases shape with
  | starting => exact .inl (fun _ _ member => nomatch member)
  | selecting _ owning => exact .inl (owning_unissued owning)
  | beating _ owning => exact .inl (owning_unissued owning)
  | taken _ _ _ beats _ owning _ => exact .inl (after beats _ owning (fun _ _ same => nomatch same))
  | settling call now rest justified => exact .inr ⟨call, now, rest, rfl, justified⟩
  | cancelling _ beats _ owning => exact .inl (after beats _ owning (fun _ _ same => nomatch same))
  | left _ _ owning => exact .inl (owning_unissued owning)
  | silenced _ _ beats _ owning => exact .inl (after beats _ owning (fun _ _ same => nomatch same))
  | settled _ call now rest justified => exact .inr ⟨call, now, rest, rfl, justified⟩

theorem complete_ack {handlerErr : Option HandlerErr} {lease : Lease}
    (acked : complete config delivery handlerErr = .ack lease) : handlerErr = none := by
  cases handlerErr with
  | none => rfl
  | some err =>
    simp only [complete] at acked
    split at acked <;> cases acked

theorem complete_retry {handlerErr : Option HandlerErr} {request : RetryRequest}
    (retried : complete config delivery handlerErr = .retry request) :
    delivery.attempt < delivery.maxAttempts ∧
      ∃ err, handlerErr = some err ∧ (classifyError err).permanent = false := by
  cases handlerErr with
  | none => cases retried
  | some err =>
    simp only [complete] at retried
    split at retried
    · cases retried
    rename_i again
    rw [Bool.or_eq_true, decide_eq_true_eq, not_or] at again
    exact ⟨Int.not_le.mp again.2, err, rfl, Bool.eq_false_iff.mpr again.1⟩

theorem complete_lease {handlerErr : Option HandlerErr} :
    (complete config delivery handlerErr).lease = some delivery.lease := by
  cases handlerErr with
  | none => rfl
  | some err =>
    simp only [complete]
    split <;> rfl

theorem justified_lease (justified : Justified config delivery returned call now log) :
    call.lease = some delivery.lease := by
  cases justified with
  | completed => exact complete_lease
  | _ => rfl

theorem justified_ack {lease : Lease} (justified : Justified config delivery returned (.ack lease) now log) :
    returned = some none ∧ ∃ before late, .took none before late ∈ log ∧ before ≠ some .deadlineExceeded := by
  generalize acked : Call.ack lease = call at justified
  cases justified with
  | completed result before _ late beats sent _ kept =>
    have nothing := complete_ack acked.symm
    split at nothing
    · cases nothing
    rename_i unexpired
    subst nothing
    exact ⟨sent, before, late, List.mem_cons_self, fun expired => unexpired (kept expired)⟩
  | _ => cases acked

theorem justified_retry {request : RetryRequest}
    (calm : ∀ err, returned = some (some err) → err.asPanic = true → err = .panicError)
    (justified : Justified config delivery returned (.retry request) now log) :
    delivery.attempt < delivery.maxAttempts ∧
      ((∃ err, returned = some (some err) ∧ err.asPermanent = false) ∨
        returned.isSome ∧ now = some .deadlineExceeded) := by
  generalize retried : Call.retry request = call at justified
  cases justified with
  | completed result _ _ _ _ sent _ _ =>
    obtain ⟨again, err, handed, passing⟩ := complete_retry retried.symm
    refine ⟨again, ?_⟩
    split at handed
    · rename_i expired
      exact .inr ⟨by rw [sent]; rfl, expired⟩
    · subst handed
      refine .inl ⟨err, sent, ?_⟩
      cases panics : err.asPanic with
      | true =>
        rw [calm err sent panics]
        rfl
      | false => rw [← classify_permanent panics, passing]
  | _ => cases retried

end

structure Protocol (delivery : Delivery) (s : State) : Prop where
  once : (s.log.filter Record.isIssued).length ≤ 1
  fenced : ∀ call now, .issued call now ∈ s.log → call.lease = some delivery.lease
  ack : ∀ lease now, .issued (.ack lease) now ∈ s.log →
    s.returned = some none ∧ ∃ before late, .took none before late ∈ s.log ∧ before ≠ some .deadlineExceeded
  retry : ∀ request now, .issued (.retry request) now ∈ s.log →
    delivery.attempt < delivery.maxAttempts ∧
      ((∃ err, s.returned = some (some err) ∧ err.asPermanent = false) ∨
        s.returned.isSome ∧ now = some .deadlineExceeded)
  silent : ∀ lease duration answer, .heartbeat lease duration answer ∈ s.log → answer ≠ (true, none) →
    ∀ call now, .issued call now ∉ s.log

theorem delivery_protocol (config : Config) (delivery : Delivery) (registry : Registry) (s : State)
    (reached : Reach (process config delivery registry) s) : Protocol delivery s := by
  have kept := reach_kept registry s reached
  rcases kept_log kept with unissued | ⟨call, now, log, same, justified⟩
  · exact ⟨by rw [filter_unissued unissued]; exact Nat.zero_le 1,
      fun call now member => absurd member (unissued call now), fun lease now member => absurd member (unissued _ now),
      fun request now member => absurd member (unissued _ now), fun _ _ _ _ _ => unissued⟩
  · have quiet := justified_quiet justified
    have earlier : ∀ other now', .issued other now' ∉ log := fun _ _ member => nomatch quiet _ member
    have only : ∀ other now', .issued other now' ∈ s.log → other = call ∧ now' = now := by
      intro other now' member
      rw [same] at member
      rcases List.mem_cons.mp member with here | before
      · cases here
        exact ⟨rfl, rfl⟩
      · exact absurd before (earlier other now')
    refine ⟨?_, ?_, ?_, ?_, ?_⟩
    · rw [same, List.filter_cons_of_pos rfl, filter_unissued earlier]
      exact Nat.le_refl 1
    · intro other now' member
      rw [(only other now' member).1]
      exact justified_lease justified
    · intro lease now' member
      obtain ⟨rfl, rfl⟩ := only _ now' member
      obtain ⟨sent, before, late, took, unexpired⟩ := justified_ack justified
      exact ⟨sent, before, late, same ▸ List.mem_cons_of_mem _ took, unexpired⟩
    · intro request now' member
      obtain ⟨rfl, rfl⟩ := only _ now' member
      exact justified_retry kept.calm justified
    · intro lease duration answer member bad
      rw [same] at member
      rcases List.mem_cons.mp member with here | before
      · cases here
      · exact absurd (of_decide_eq_true (quiet _ before)) bad

def sampleConfig : Config := ⟨minute, 5 * second, 8192⟩

def sampleRegistry : Registry := fun _ => some ⟨fun _ => true⟩

def sampleDelivery : Delivery where
  id := "j"
  queue := "default"
  name := "mail.send.v1"
  payload := "\x7b\x7d"
  priority := 0
  attempt := 1
  maxAttempts := 3
  timeout := minute
  backoff := [second]
  dedupKey := ""
  availableAt := 0
  leasedAt := 0
  leaseExpires := minute
  lease := ⟨"j", "worker-a", 1⟩

theorem sample_reach (events : List Event) (returned : Option (Option HandlerErr)) (log : List Record)
    (replayed : (events.foldlM (step sampleConfig sampleDelivery sampleRegistry) State.start).map
      (fun s => (s.returned, s.log)) = some (returned, log)) :
    ∃ s, Reach (process sampleConfig sampleDelivery sampleRegistry) s ∧ s.returned = returned ∧ s.log = log := by
  obtain ⟨s, done, same⟩ := Option.map_eq_some_iff.mp replayed
  have run : Run (process sampleConfig sampleDelivery sampleRegistry) State.start events s :=
    replay_run (fun _ _ _ stepped => stepped) _ done
  exact ⟨s, reach_run (.start _ rfl) run, (Prod.mk.inj same).1, (Prod.mk.inj same).2⟩

def sampleHistory : List Record :=
  [.issued (.retry ⟨⟨"j", "worker-a", 1⟩, minute, "error", "handler requested a retry"⟩) none,
   .took (HandlerErr.retryAfter (some .other) minute) none false, .heartbeat ⟨"j", "worker-a", 1⟩ minute (true, none)]

theorem delivery_protocol_sample :
    ∃ s, Reach (process sampleConfig sampleDelivery sampleRegistry) s ∧ s.log = sampleHistory ∧
    Protocol sampleDelivery s := by
  obtain ⟨s, reached, _, log⟩ := sample_reach
    [.start, .around .tick, .takeTick, .answer (true, none),
     .around (.handlerReturns (HandlerErr.retryAfter (some .other) minute)), .takeResult, .complete,
     .answer (true, none)]
    (some (HandlerErr.retryAfter (some .other) minute)) sampleHistory (by decide +kernel)
  exact ⟨s, reached, log, delivery_protocol sampleConfig sampleDelivery sampleRegistry s reached⟩

theorem late_results_are_settled :
    (∃ s, Reach (process sampleConfig sampleDelivery sampleRegistry) s ∧ s.returned = some none ∧
      s.log = [.issued (.ack ⟨"j", "worker-a", 1⟩) (some .canceled), .took none (some .canceled) true]) ∧
    ∃ s, Reach (process sampleConfig sampleDelivery sampleRegistry) s ∧
      s.returned = some (HandlerErr.permanent (some .other)) ∧
      s.log =
      [.issued (.retry ⟨⟨"j", "worker-a", 1⟩, second, "timeout", "handler deadline exceeded"⟩) (some .deadlineExceeded),
        .took (HandlerErr.permanent (some .other)) (some .deadlineExceeded) true] :=
  ⟨sample_reach
    [.start, .around .shutdown, .around .shutdownReaches, .around .deadlinePasses, .around (.handlerReturns none),
     .takeResult, .complete] _ _ (by decide +kernel),
   sample_reach
    [.start, .around .deadlinePasses, .around .deadlineFires,
     .around (.handlerReturns (HandlerErr.permanent (some .other))), .takeResult, .complete] _ _ (by decide +kernel)⟩

end Goforge.Job.Worker
