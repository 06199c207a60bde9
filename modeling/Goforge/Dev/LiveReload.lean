import Goforge.Lib.Machine

set_option autoImplicit false

namespace Goforge.Dev

open Machine

def maxUint64 : Nat := 18446744073709551615

-- A channel is known by its number; slot is what its buffer of one value holds.
structure LiveReload where
  maxSubscribers : Nat
  generation : Nat
  subscribers : List Nat
  closed : Bool
  made : Nat
  slot : Nat → Option Nat

-- A send to a channel whose buffer is full takes the default case.
def LiveReload.notifyReload (reload : LiveReload) : LiveReload :=
  if reload.closed then reload
  else
    let generation := if reload.generation < maxUint64 then reload.generation + 1 else reload.generation
    { reload with
      generation := generation
      slot := fun channel =>
        if channel ∈ reload.subscribers ∧ reload.slot channel = none then some generation else reload.slot channel }

def LiveReload.close (reload : LiveReload) : LiveReload := { reload with closed := true }

def LiveReload.subscribe (reload : LiveReload) (since : Nat) : (Option Nat × Nat × Nat) × LiveReload :=
  if reload.closed then ((none, reload.generation, 503), reload)
  else if reload.generation < since then ((none, reload.generation, 400), reload)
  else if since < reload.generation then ((none, reload.generation, 200), reload)
  else if reload.maxSubscribers ≤ reload.subscribers.length then ((none, reload.generation, 503), reload)
  else
    ((some reload.made, reload.generation, 200),
      { reload with
        subscribers := reload.made :: reload.subscribers
        made := reload.made + 1
        slot := fun channel => if channel = reload.made then none else reload.slot channel })

def LiveReload.unsubscribe (reload : LiveReload) (channel : Nat) : LiveReload :=
  { reload with subscribers := reload.subscribers.filter (· ≠ channel) }

def LiveReload.receive (reload : LiveReload) (channel : Nat) : LiveReload :=
  { reload with slot := fun other => if other = channel then none else reload.slot other }

-- A browser: it has a page that carries a generation, its events request is in the
-- select, about to run the deferred unsubscribe, or answered. told is the reload
-- event written to it. seen is ghost state: the notifications before its page was
-- requested, none for a since that no page carried.
inductive Client where
  | idle
  | page (since : Nat) (seen : Option Nat)
  | waiting (channel since : Nat) (seen : Option Nat)
  | leaving (channel : Nat) (told seen : Option Nat)
  | answered (status : Nat) (told seen : Option Nat)

-- notified counts the notifications before Close.
structure Service where
  reload : LiveReload
  notified : Nat
  client : Nat → Client

def Service.put (s : Service) (reload : LiveReload) (id : Nat) (client : Client) : Service :=
  { s with reload := reload, client := fun other => if other = id then client else s.client other }

def answer (since : Nat) (seen : Option Nat) : Option Nat × Nat × Nat → Client
  | (some channel, _, _) => .waiting channel since seen
  | (none, current, status) => .answered status (if status = 200 then some current else none) seen

-- One step of one party. A client leaves when its request is cancelled, a write fails
-- or the service is closed; the select may take one of these before an event.
inductive Moves (s : Service) : Service → Prop where
  | page (id : Nat) (idle : s.client id = .idle) :
      Moves s (s.put s.reload id (.page s.reload.generation (some s.notified)))
  | arrive (id since : Nat) (idle : s.client id = .idle) : Moves s (s.put s.reload id (.page since none))
  | notify :
      Moves s ⟨s.reload.notifyReload, if s.reload.closed then s.notified else s.notified + 1, s.client⟩
  | close : Moves s { s with reload := s.reload.close }
  | subscribe (id since : Nat) (seen : Option Nat) (here : s.client id = .page since seen) :
      Moves s (s.put (s.reload.subscribe since).2 id (answer since seen (s.reload.subscribe since).1))
  | receive (id channel since generation : Nat) (seen : Option Nat) (here : s.client id = .waiting channel since seen)
      (event : s.reload.slot channel = some generation) :
      Moves s (s.put (s.reload.receive channel) id (.leaving channel (some generation) seen))
  | leave (id channel since : Nat) (seen : Option Nat) (here : s.client id = .waiting channel since seen) :
      Moves s (s.put s.reload id (.leaving channel none seen))
  | unsubscribe (id channel : Nat) (told seen : Option Nat) (here : s.client id = .leaving channel told seen) :
      Moves s (s.put (s.reload.unsubscribe channel) id (.answered 200 told seen))

def liveReload (limit : Nat) : System Service Unit where
  start s := s = ⟨⟨limit, 0, [], false, 0, fun _ => none⟩, 0, fun _ => .idle⟩
  step s _ t := Moves s t

def Client.channel : Client → Option Nat
  | .waiting channel _ _ => some channel
  | .leaving channel _ _ => some channel
  | _ => none

def Late (notified : Nat) (seen : Option Nat) : Prop :=
  ∀ before ∈ seen, before < notified ∨ maxUint64 < notified

def Dated (notified since : Nat) (seen : Option Nat) : Prop :=
  ∀ before ∈ seen, before ≤ notified ∧ since = min before maxUint64

def ClientSound (reload : LiveReload) (notified : Nat) : Client → Prop
  | .idle => True
  | .page since seen => Dated notified since seen
  | .waiting channel since seen =>
    Dated notified since seen ∧ if reload.slot channel = none then since = reload.generation else Late notified seen
  | .leaving _ told seen => told ≠ none → Late notified seen
  | .answered _ told seen => told ≠ none → Late notified seen

structure Sound (limit : Nat) (s : Service) : Prop where
  limited : s.reload.maxSubscribers = limit ∧ s.reload.subscribers.length ≤ limit
  counted : s.reload.generation = min s.notified maxUint64
  clients : ∀ id, ClientSound s.reload s.notified (s.client id)
  fresh : ∀ channel ∈ s.reload.subscribers, channel < s.reload.made
  owned : ∀ channel, channel ∈ s.reload.subscribers ↔ ∃ id, (s.client id).channel = some channel
  apart : ∀ a b channel, (s.client a).channel = some channel → (s.client b).channel = some channel → a = b

section

variable {limit id : Nat} {s : Service}

theorem put_client (s : Service) (reload : LiveReload) (id other : Nat) (client : Client) :
    (s.put reload id client).client other = if other = id then client else s.client other := rfl

theorem put_same {client : Client} (sound : Sound limit s) (good : ClientSound s.reload s.notified client)
    (same : client.channel = (s.client id).channel) : Sound limit (s.put s.reload id client) := by
  have channels : ∀ other, ((s.put s.reload id client).client other).channel = (s.client other).channel := by
    intro other
    by_cases own : other = id <;> simp [put_client, own, same]
  refine ⟨sound.limited, sound.counted, fun other => ?_, sound.fresh, fun channel => ?_, ?_⟩
  · rw [put_client]
    split
    · exact good
    · exact sound.clients other
  · simp only [channels]
    exact sound.owned channel
  · simpa only [channels] using sound.apart

theorem late_later {notified : Nat} {seen : Option Nat} (late : Late notified seen) : Late (notified + 1) seen := by
  intro before member
  have := late before member
  omega

-- Everybody in the select has an event now.
theorem notify_client (sound : Sound limit s) (alive : s.reload.closed = false) (id : Nat) :
    ClientSound s.reload.notifyReload (s.notified + 1) (s.client id) := by
  have before := sound.clients id
  cases here : s.client id with
  | idle => trivial
  | page since seen =>
    rw [here] at before
    exact fun k member => ⟨by have := (before k member).1; omega, (before k member).2⟩
  | waiting channel since seen =>
    rw [here] at before
    obtain ⟨dated, event⟩ := before
    have joined : channel ∈ s.reload.subscribers := (sound.owned channel).mpr ⟨id, by rw [here]; rfl⟩
    refine ⟨fun k member => ⟨by have := (dated k member).1; omega, (dated k member).2⟩, ?_⟩
    rw [if_neg (by
      simp only [LiveReload.notifyReload, alive, Bool.false_eq_true, if_false, joined, true_and]
      split <;> simp_all)]
    exact fun k member => by have := (dated k member).1; omega
  | _ =>
    rw [here] at before
    exact fun event => late_later (before event)

theorem notify_sound (sound : Sound limit s) :
    Sound limit ⟨s.reload.notifyReload, if s.reload.closed then s.notified else s.notified + 1, s.client⟩ := by
  cases closed : s.reload.closed with
  | true => simpa [LiveReload.notifyReload, closed] using sound
  | false =>
    have counted := sound.counted
    refine ⟨?_, ?_, notify_client sound closed, ?_, ?_, sound.apart⟩
    · simpa [LiveReload.notifyReload, closed] using sound.limited
    · simp only [LiveReload.notifyReload, closed, Bool.false_eq_true, if_false]
      split <;> omega
    · simpa [LiveReload.notifyReload, closed] using sound.fresh
    · simpa [LiveReload.notifyReload, closed] using sound.owned

theorem client_kept {reload after : LiveReload} {notified : Nat} {client : Client}
    (sound : ClientSound reload notified client) (generation : after.generation = reload.generation)
    (slots : ∀ channel, client.channel = some channel → after.slot channel = reload.slot channel) :
    ClientSound after notified client := by
  cases client with
  | waiting channel since seen =>
    rw [ClientSound, slots channel rfl, generation]
    exact sound
  | _ => exact sound

theorem subscribe_sound {since : Nat} {seen : Option Nat} (sound : Sound limit s)
    (here : s.client id = .page since seen) :
    Sound limit (s.put (s.reload.subscribe since).2 id (answer since seen (s.reload.subscribe since).1)) := by
  have counted := sound.counted
  have dated := sound.clients id
  rw [here] at dated
  have none : (s.client id).channel = none := by rw [here]; rfl
  rw [LiveReload.subscribe]
  split
  · exact put_same sound (by simp [answer, ClientSound]) none.symm
  split
  · exact put_same sound (by simp [answer, ClientSound]) none.symm
  split
  · rename_i passed
    refine put_same sound (fun _ k member => ?_) none.symm
    have := dated k member
    omega
  split
  · exact put_same sound (by simp [answer, ClientSound]) none.symm
  · rename_i room
    have mine : ∀ other channel, (s.client other).channel = some channel → channel ≠ s.reload.made :=
      fun other channel held => Nat.ne_of_lt (sound.fresh channel ((sound.owned channel).mpr ⟨other, held⟩))
    refine ⟨⟨sound.limited.1, ?_⟩, counted, fun other => ?_, fun channel member => ?_, fun channel => ?_, ?_⟩
    · have := sound.limited.1
      simp only [Service.put, List.length_cons]
      omega
    · rw [put_client]
      split
      · refine ⟨dated, ?_⟩
        simp only [Service.put, if_true]
        omega
      · exact client_kept (sound.clients other) rfl (fun channel held => if_neg (mine other channel held))
    · rcases List.mem_cons.mp member with rfl | old
      · exact Nat.lt_succ_self _
      · exact Nat.lt_succ_of_lt (sound.fresh channel old)
    · have owned := sound.owned channel
      simp only [Service.put]
      grind [answer, Client.channel]
    · have apart := sound.apart
      simp only [put_client]
      grind [answer, Client.channel]

theorem receive_sound {channel since : Nat} {seen : Option Nat} {generation : Nat} (sound : Sound limit s)
    (here : s.client id = .waiting channel since seen) (event : s.reload.slot channel = some generation) :
    Sound limit (s.put (s.reload.receive channel) id (.leaving channel (some generation) seen)) := by
  have held : (s.client id).channel = some channel := by rw [here]; rfl
  have late := sound.clients id
  rw [here, ClientSound, if_neg (by simp [event])] at late
  have emptied : Sound limit (s.put s.reload id (.leaving channel (some generation) seen)) :=
    put_same sound (fun _ => late.2) held.symm
  refine ⟨emptied.limited, emptied.counted, fun other => ?_, emptied.fresh, emptied.owned, emptied.apart⟩
  have before := emptied.clients other
  rw [put_client] at before ⊢
  split
  · exact fun _ => late.2
  · rename_i apart
    rw [if_neg apart] at before
    refine client_kept before rfl (fun theirs own => if_neg (fun same => apart ?_))
    exact sound.apart other id channel (same ▸ own) held

theorem unsubscribe_sound {channel : Nat} {told seen : Option Nat} (sound : Sound limit s)
    (here : s.client id = .leaving channel told seen) :
    Sound limit (s.put (s.reload.unsubscribe channel) id (.answered 200 told seen)) := by
  have held : (s.client id).channel = some channel := by rw [here]; rfl
  have late := sound.clients id
  rw [here] at late
  have shorter := List.length_filter_le (fun other => decide (other ≠ channel)) s.reload.subscribers
  refine ⟨⟨sound.limited.1, Nat.le_trans shorter sound.limited.2⟩, sound.counted, fun other => ?_,
    fun other member => ?_,
    fun other => ?_, ?_⟩
  · rw [put_client]
    split
    · exact late
    · exact client_kept (sound.clients other) rfl (fun _ _ => rfl)
  · exact sound.fresh other (List.mem_filter.mp member).1
  · have owned := sound.owned other
    have apart := sound.apart
    simp only [Service.put, LiveReload.unsubscribe, List.mem_filter]
    grind [Client.channel]
  · have apart := sound.apart
    simp only [put_client]
    grind [Client.channel]

theorem moves_sound {t : Service} (sound : Sound limit s) (step : Moves s t) : Sound limit t := by
  cases step with
  | page id idle =>
    exact put_same sound (by rintro _ ⟨⟩; exact ⟨Nat.le_refl _, sound.counted⟩) (by rw [idle]; rfl)
  | arrive id since idle => exact put_same sound (by rintro _ ⟨⟩) (by rw [idle]; rfl)
  | notify => exact notify_sound sound
  | close =>
    exact ⟨sound.limited, sound.counted, fun id => client_kept (sound.clients id) rfl (fun _ _ => rfl), sound.fresh,
      sound.owned, sound.apart⟩
  | subscribe id since seen here => exact subscribe_sound sound here
  | receive id channel since generation seen here event => exact receive_sound sound here event
  | leave id channel since seen here => exact put_same sound (fun event => absurd rfl event) (by rw [here]; rfl)
  | unsubscribe id channel told seen here => exact unsubscribe_sound sound here

-- In every interleaving: a subscriber has an event exactly if a notification came
-- after its page was requested, and is told of a reload only then. A page that missed
-- one is told at once, and never that its generation is unknown.
structure NoneMissed (limit : Nat) (s : Service) : Prop where
  limited : s.reload.subscribers.length ≤ limit
  owned : ∀ channel ∈ s.reload.subscribers, ∃ id, ∀ other, (s.client other).channel = some channel ↔ other = id
  waiting : ∀ id channel since seen, s.client id = .waiting channel since (some seen) →
    channel ∈ s.reload.subscribers ∧ (s.reload.slot channel = none ↔ seen = s.notified)
  told : ∀ id status event seen, s.client id = .answered status (some event) (some seen) → seen < s.notified
  page : ∀ id since seen, s.client id = .page since (some seen) → (s.reload.subscribe since).1 =
    if s.reload.closed then (none, s.reload.generation, 503)
    else if seen < s.notified then (none, s.reload.generation, 200)
    else if limit ≤ s.reload.subscribers.length then (none, s.reload.generation, 503)
    else (some s.reload.made, s.reload.generation, 200)

theorem no_missed_reload (limit : Nat) (s : Service) (reached : Reach (liveReload limit) s)
    (few : s.notified ≤ maxUint64) : NoneMissed limit s := by
  have sound : Sound limit s := by
    refine reach_invariant (Sound limit) ?_ (fun s _ t sound step => moves_sound sound step) reached
    rintro _ rfl
    exact ⟨⟨rfl, Nat.zero_le _⟩, rfl, fun _ => trivial, by simp, by simp [Client.channel], by simp [Client.channel]⟩
  have counted := sound.counted
  refine ⟨sound.limited.2, ?_, ?_, ?_, ?_⟩
  · intro channel member
    obtain ⟨id, held⟩ := (sound.owned channel).mp member
    exact ⟨id, fun other => ⟨fun own => sound.apart other id channel own held, fun same => same ▸ held⟩⟩
  · intro id channel since seen here
    have waits := sound.clients id
    rw [here] at waits
    refine ⟨(sound.owned channel).mpr ⟨id, by rw [here]; rfl⟩, ?_⟩
    have dated := waits.1 seen rfl
    have event := waits.2
    split at event
    · rename_i empty
      exact ⟨fun _ => by omega, fun _ => empty⟩
    · rename_i full
      have late := event seen rfl
      exact ⟨fun empty => absurd empty full, fun same => by omega⟩
  · intro id status event seen here
    have told := sound.clients id
    rw [here] at told
    have late := told (by simp) seen rfl
    omega
  · intro id since seen here
    have page := sound.clients id
    rw [here] at page
    have dated := page seen rfl
    have limited := sound.limited.1
    simp only [LiveReload.subscribe]
    grind

end

theorem no_missed_reload_notified : ∃ s, Reach (liveReload 64) s ∧ s.client 0 = .waiting 0 0 (some 0) ∧
    s.reload.slot 0 = some 1 ∧ s.notified ≤ maxUint64 ∧ NoneMissed 64 s := by
  have first : Reach (liveReload 64) _ := .start _ rfl
  have page : Reach (liveReload 64) _ := .next _ _ () first (.page 0 rfl)
  have joined : Reach (liveReload 64) _ := .next _ _ () page (.subscribe 0 0 (some 0) rfl)
  have notified : Reach (liveReload 64) _ := .next _ _ () joined .notify
  exact ⟨_, notified, rfl, rfl, by decide, no_missed_reload 64 _ notified (by decide)⟩

end Goforge.Dev
