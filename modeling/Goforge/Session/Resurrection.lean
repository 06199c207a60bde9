import Goforge.Session.Held

set_option autoImplicit false

namespace Goforge.Sessions

open GoTime Interleave Machine

section

variable {policy : Policy}

theorem run_dead {c d : Config Shared Nat Reply Local} {labels : List (Label Nat Method)} {id : String}
    (kept : Kept (world orderly) resurrectionRules LocalHeld c) (run : Run (requests orderly policy) c labels d)
    (born : id ∈ c.world.ids.stored) :
    Kept (world orderly) resurrectionRules LocalHeld d ∧ id ∈ d.world.ids.stored ∧
      (¬ Loadable c.world id → ¬ Loadable d.world id) := by
  have trans : ∀ s t u : Shared, (id ∈ s.ids.stored → id ∈ t.ids.stored ∧ (¬ Loadable s id → ¬ Loadable t id)) →
      (id ∈ t.ids.stored → id ∈ u.ids.stored ∧ (¬ Loadable t id → ¬ Loadable u id)) →
      id ∈ s.ids.stored → id ∈ u.ids.stored ∧ (¬ Loadable s id → ¬ Loadable u id) := by
    intro s t u first second member
    obtain ⟨there, dead⟩ := first member
    obtain ⟨further, still⟩ := second there
    exact ⟨further, fun gone => still (dead gone)⟩
  obtain ⟨last, later⟩ := run_relied (resurrection_sound policy) (fun _ member => ⟨member, fun dead => dead⟩) trans
    (fun _ _ _ undisturbed member => ⟨undisturbed.ids.stored id member, undisturbed.dead id member⟩) c d labels kept run
  exact ⟨last, later born⟩

theorem loadable_born {s : Shared} {id : String} (registered : Registered s) (loadable : Loadable s id) :
    id ∈ s.ids.stored := by
  apply registered.stored
  intro none
  exact loadable (live_none s.clock none)

theorem save_run {c d : Config Shared Nat Reply Local} {party : Nat} {session result : Session} {outcome : Outcome}
    {written : Bool} {labels : List (Label Nat Method)} (kept : Kept (world orderly) resurrectionRules LocalHeld c)
    (holds : c.progs party = .ret ⟨some session, outcome⟩)
    (run : Run (requests orderly policy) c (.begins party (.save written) :: labels) d)
    (busy : ∀ method, .begins party method ∉ labels) (returned : d.progs party = .ret ⟨some result, .saved⟩) :
    Saved policy party session (Removed c.world session) d.world (.ok (), result) := by
  have held := kept.valid party
  rw [holds] at held
  cases run with
  | cons _ m _ _ _ first later =>
    obtain ⟨next, _⟩ := kept_step (resurrection_sound policy) kept first
    obtain ⟨value, idle, rfl⟩ := first
    cases holds.symm.trans idle
    have followed := run_valid (resurrection_sound policy) (fun t state => ∀ result, state = ⟨some result, .saved⟩ →
        Saved policy party session (Removed c.world session) t (.ok (), result)) ?_ next later busy ?_
    · rw [returned] at followed
      exact followed result rfl
    · intro s t state saved others result is
      exact ⟨held_undisturbed (saved result is).held others, (saved result is).recreated⟩
    · rw [set_same]
      apply valid_bind
      refine valid_mono ?_ c.world (save_held policy written (held session rfl))
      rintro t ⟨_ | _, kept⟩ saved
      · rintro _ ⟨⟩
      · rintro _ ⟨⟩
        exact saved

end

-- An id that a Get could find and later cannot is never found again. A Save of a
-- session whose row is gone succeeds only if RegenerateOrCreate was the last
-- rotation, under an id no row was ever stored under, or if the session is past
-- its absolute lifetime, when it is cleared.
theorem no_session_resurrection (policy : Policy) (c : Config Shared Nat Reply Local)
    (reached : Reach (requests orderly policy) c) :
    (∀ id, Loadable c.world id → ∀ labels d, Run (requests orderly policy) c labels d → ¬ Loadable d.world id →
      ∀ later e, Run (requests orderly policy) d later e → ¬ Loadable e.world id) ∧
    ∀ party session outcome, c.progs party = .ret ⟨some session, outcome⟩ → session.persistedID ≠ "" →
      ¬ Loadable c.world session.persistedID → ∀ written labels d result,
      Run (requests orderly policy) c (.begins party (.save written) :: labels) d →
      (∀ method, .begins party method ∉ labels) → d.progs party = .ret ⟨some result, .saved⟩ →
      (session.staged = some .regenerateOrCreate ∧ result.id = session.id ∧ session.id ∉ c.world.ids.stored) ∨
        ClearedLate policy session result := by
  have kept := reach_kept (resurrection_sound policy) c reached
  refine ⟨?_, ?_⟩
  · intro id loadable labels d run gone later e rerun
    have born := loadable_born kept.inv loadable
    obtain ⟨there, still, _⟩ := run_dead kept run born
    exact (run_dead there rerun still).2.2 gone
  · intro party session outcome holds saved gone written labels d result run busy returned
    have held := kept.valid party
    rw [holds] at held
    have outcome := save_run kept holds run busy returned
    rcases outcome.recreated ⟨saved, gone⟩ rfl with passed | ⟨staged, same, named, apart⟩
    · exact .inr passed
    · exact .inl ⟨staged, same, ((held session rfl).fresh named apart).1⟩

def invalidatedMeanwhile : Config Shared Nat Reply Local :=
  samplePlay shortPolicy [(0, .load ""), (0, .save false), (0, .regenerate .regenerateOrCreate), (1, .load "x"),
    (1, .invalidate false)]

theorem no_session_resurrection_recreated :
    ∃ session labels d result, invalidatedMeanwhile.progs 0 = .ret ⟨some session, .done⟩ ∧
      session.persistedID = "x" ∧ ¬ Loadable invalidatedMeanwhile.world "x" ∧
      Run (requests orderly shortPolicy) invalidatedMeanwhile (.begins 0 (.save false) :: labels) d ∧
      d.progs 0 = .ret ⟨some result, .saved⟩ ∧
      ((session.staged = some .regenerateOrCreate ∧ result.id = session.id ∧
          session.id ∉ invalidatedMeanwhile.world.ids.stored) ∨
        ClearedLate shortPolicy session result) := by
  have holds : ∃ session, invalidatedMeanwhile.progs 0 = .ret ⟨some session, .done⟩ ∧ session.persistedID = "x" :=
    ⟨_, rfl, rfl⟩
  obtain ⟨session, idle, persisted⟩ := holds
  have gone : ¬ Loadable invalidatedMeanwhile.world "x" := fun loadable => loadable rfl
  obtain ⟨labels, busy, run⟩ := sample_call_run orderly (.save false) idle
  have saved : ∃ result, (play sampleAnswer (program shortPolicy) [(0, .save false)] invalidatedMeanwhile).progs 0 =
      .ret ⟨some result, .saved⟩ := ⟨_, rfl⟩
  obtain ⟨result, returned⟩ := saved
  refine ⟨session, labels, _, result, idle, persisted, gone, run, returned, ?_⟩
  have safe := no_session_resurrection shortPolicy invalidatedMeanwhile (sample_play_reached _ _ _)
  exact safe.2 0 session .done idle (by rw [persisted]; decide) (by rw [persisted]; exact gone) false labels _ result
    run busy returned

def destroyedMeanwhile : Config Shared Nat Reply Local :=
  samplePlay shortPolicy [(0, .load ""), (0, .save false), (1, .load "x"), (1, .destroy false)]

def rotatedAfterwards : Config Shared Nat Reply Local :=
  samplePlay shortPolicy [(0, .load ""), (0, .save false), (0, .invalidate false), (0, .regenerate .regenerate)]

theorem save_after_removal :
    (∃ session labels d result, Reach (requests orderly shortPolicy) destroyedMeanwhile ∧
      destroyedMeanwhile.progs 0 = .ret ⟨some session, .saved⟩ ∧ session.id = "x" ∧ session.persistedID = "x" ∧
      session.staged = none ∧ ¬ Loadable destroyedMeanwhile.world "x" ∧
      Run (requests orderly shortPolicy) destroyedMeanwhile (.begins 0 (.save false) :: labels) d ∧
      d.progs 0 = .ret ⟨some result, .saved⟩) ∧
    ∃ session labels d result, Reach (requests orderly shortPolicy) rotatedAfterwards ∧
      rotatedAfterwards.progs 0 = .ret ⟨some session, .done⟩ ∧ "x" ∈ rotatedAfterwards.world.ids.stored ∧
      ¬ Loadable rotatedAfterwards.world "x" ∧ session.staged = some .regenerate ∧
      Run (requests orderly shortPolicy) rotatedAfterwards (.begins 0 (.save false) :: labels) d ∧
      d.progs 0 = .ret ⟨some result, .saved⟩ ∧ Loadable d.world result.id := by
  refine ⟨?_, ?_⟩
  · obtain ⟨labels, _, run⟩ := sample_call_run orderly (.save false) (show destroyedMeanwhile.progs 0 = .ret _ from rfl)
    exact ⟨_, labels, _, _, sample_play_reached _ _ _, rfl, rfl, rfl, rfl, fun loadable => loadable rfl, run, rfl⟩
  · obtain ⟨labels, _, run⟩ := sample_call_run orderly (.save false) (show rotatedAfterwards.progs 0 = .ret _ from rfl)
    exact ⟨_, labels, _, _, sample_play_reached _ _ _, rfl, List.mem_cons_self, fun loadable => loadable rfl, rfl, run,
      rfl, (by rintro ⟨⟩)⟩

end Goforge.Sessions
