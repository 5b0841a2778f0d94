import CpuMonitor.Proofs.Watcher.Traffic

/-!
# One query at a time

What any number of callers of one watcher can rely on, in whatever order they and their workers take their steps.

* `slots_step` : all that a step can do to the flag and to the slots.
* `Slotted` : the flag is set exactly while there is a live slot, and there are never two.
* `Wired` : a channel joins a call with the one worker that it started, and carries the answer of that worker only.
* `single_query` : what follows of these, for every state that callers can reach.

A step keeps both invariants (`Slotted.step`, `Wired.step`), and so does any run.
-/

set_option autoImplicit false

namespace CpuMonitor.Traffic

/-! ## Slots -/

variable {t t' : Traffic} {a : Action}

/-- What a step does to the flag and to the slots. -/
inductive SlotStep (t : Traffic) (a : Action) (t' : Traffic) : Prop where
  | still (flag : t'.inFlight = t.inFlight) (keeps : a.drops = false) (slots : ∀ q, t'.holds q = t.holds q)
  | taken (c : Nat) (free : t.inFlight = false) (flag : t'.inFlight = true) (keeps : a.drops = false)
      (slots : ∀ q, t'.holds q = if q = .call c then true else t.holds q)
  | handed (c w : Nat) (flag : t'.inFlight = t.inFlight) (keeps : a.drops = false) (giver : t.holds (.call c) = true)
      (slots : ∀ q, t'.holds q = if q = .worker w then true else if q = .call c then false else t.holds q)
  | dropped (flag : t'.inFlight = false) (drops : a.drops = true) (holder : t.holds a.actor = true)
      (slots : ∀ q, t'.holds q = if q = a.actor then false else t.holds q)

theorem holds_call {c : Nat} {o : Option Call} (h : t.calls c = o) : t.holds (.call c) = o.any Call.holdsSlot := by
  rw [← h]
  rfl

theorem holds_worker {w : Nat} {k : Worker} (h : t.workers w = some k) :
    t.holds (.worker w) = k.phase.holdsSlot := by
  show (t.workers w).any _ = _
  rw [h, Option.any_some]

theorem holds_setCall_same {c : Nat} {p : Call} (h : t.holds (.call c) = p.holdsSlot) (q : Party) :
    (t.setCall c p).holds q = t.holds q := by
  rw [holds_setCall]
  split
  · next hq => rw [hq, h]
  · rfl

theorem holds_setWorker_same {w : Nat} {k : Worker} (h : t.holds (.worker w) = k.phase.holdsSlot) (q : Party) :
    (t.setWorker w k).holds q = t.holds q := by
  rw [holds_setWorker]
  split
  · next hq => rw [hq, h]
  · rfl

theorem slots_step (h : Step t a t') : SlotStep t a t' := by
  cases h with
  | claim new free => exact .taken _ free rfl rfl fun q => by rw [holds_setFlag, holds_setCall]; rfl
  | busy new taken => exact .still rfl rfl (holds_setCall_same (holds_call new))
  | start call newWorker newChannel =>
    exact .handed _ _ rfl rfl (holds_call call) fun q => by
      rw [holds_setChannel, holds_setWorker, holds_setCall]
      rfl
  | startFails call reason => exact .still rfl rfl (holds_setCall_same (holds_call call))
  | giveBack call => exact .dropped rfl rfl (holds_call call) fun q => by rw [holds_setFlag, holds_setCall]; rfl
  | returns worker phase answer =>
    refine .still rfl rfl (holds_setWorker_same ?_)
    rw [holds_worker worker, phase]
    rfl
  | panics worker phase =>
    refine .still rfl rfl (holds_setWorker_same ?_)
    rw [holds_worker worker, phase]
    rfl
  | letGo worker phase =>
    refine .dropped rfl rfl ?_ fun q => by rw [holds_setFlag, holds_setWorker]; rfl
    exact (holds_worker worker).trans (by rw [phase]; rfl)
  | unwind worker phase =>
    refine .dropped rfl rfl ?_ fun q => by rw [holds_setFlag, holds_setWorker]; rfl
    exact (holds_worker worker).trans (by rw [phase]; rfl)
  | send worker phase answer channel =>
    refine .still rfl rfl fun q => (holds_setChannel ..).trans (holds_setWorker_same ?_ q)
    rw [holds_worker worker, phase]
    rfl
  | close worker phase channel =>
    refine .still rfl rfl fun q => (holds_setChannel ..).trans (holds_setWorker_same ?_ q)
    rw [holds_worker worker, phase]
    rfl
  | receive call channel message =>
    exact .still rfl rfl fun q => (holds_setChannel ..).trans (holds_setCall_same (holds_call call) q)
  | timeOut call channel =>
    exact .still rfl rfl fun q => (holds_setChannel ..).trans (holds_setCall_same (holds_call call) q)
  | lose call channel message closed =>
    exact .still rfl rfl fun q => (holds_setChannel ..).trans (holds_setCall_same (holds_call call) q)

/-- The flag is set exactly while there is a slot, and there are never two. -/
structure Slotted (t : Traffic) : Prop where
  one : ∀ p q, t.holds p = true → t.holds q = true → p = q
  flag : ∀ p, t.holds p = true → t.inFlight = true
  slot : t.inFlight = true → ∃ p, t.holds p = true

theorem Slotted.idle : Slotted idle where
  one p _ hp _ := by cases p <;> cases hp
  flag p hp := by cases p <;> cases hp
  slot h := by cases h

theorem Slotted.none_after_drop (h : Slotted t) {p : Party} (hp : t.holds p = true)
    (slots : ∀ q, t'.holds q = if q = p then false else t.holds q) (q : Party) : t'.holds q = false := by
  rw [slots]
  by_cases hq : q = p
  · rw [if_pos hq]
  · rw [if_neg hq]
    exact Bool.eq_false_iff.2 fun hold => hq (h.one q p hold hp)

theorem Slotted.step (h : Slotted t) (hstep : Step t a t') : Slotted t' := by
  cases slots_step hstep with
  | still flag keeps slots =>
    refine ⟨fun p q hp hq => ?_, fun p hp => ?_, fun hf => ?_⟩
    · rw [slots] at hp hq
      exact h.one p q hp hq
    · rw [slots] at hp
      rw [flag, h.flag p hp]
    · rw [flag] at hf
      obtain ⟨p, hp⟩ := h.slot hf
      exact ⟨p, (slots p).trans hp⟩
  | taken c free flag keeps slots =>
    -- no one else can have a slot, as the flag was not set
    have honly : ∀ p, t'.holds p = true → p = .call c := fun p hp => by
      by_cases hpc : p = .call c
      · exact hpc
      · rw [slots, if_neg hpc] at hp
        rw [h.flag p hp] at free
        cases free
    refine ⟨fun p q hp hq => (honly p hp).trans (honly q hq).symm, fun _ _ => flag, fun _ => ⟨.call c, ?_⟩⟩
    rw [slots, if_pos rfl]
  | handed c w flag keeps giver slots =>
    have honly : ∀ p, t'.holds p = true → p = .worker w := fun p hp => by
      by_cases hpw : p = .worker w
      · exact hpw
      · rw [slots, if_neg hpw] at hp
        by_cases hpc : p = .call c
        · rw [if_pos hpc] at hp
          cases hp
        · rw [if_neg hpc] at hp
          exact absurd (h.one p _ hp giver) hpc
    refine ⟨fun p q hp hq => (honly p hp).trans (honly q hq).symm, fun _ _ => ?_, fun _ => ⟨.worker w, ?_⟩⟩
    · rw [flag, h.flag _ giver]
    · rw [slots, if_pos rfl]
  | dropped flag drops holder slots =>
    have hnone := h.none_after_drop holder slots
    refine ⟨fun p _ hp _ => ?_, fun p hp => ?_, fun hf => ?_⟩
    · rw [hnone p] at hp
      cases hp
    · rw [hnone p] at hp
      cases hp
    · rw [flag] at hf
      cases hf

theorem Slotted.run {t₀ : Traffic} (h₀ : Slotted t₀) (h : Run t₀ t) : Slotted t := by
  induction h with
  | refl => exact h₀
  | tail _ step ih => exact ih.step step

/-! ## Channels -/

/-- The worker was started by a call and told an answer by the source. -/
def Told (t : Traffic) (w c : Nat) (a : Answer) : Prop :=
  ∃ k, t.workers w = some k ∧ k.starter = c ∧ k.answer = some a

/-- Each worker shares its channel with one call, and what comes that way is its answer. -/
structure Wired (t : Traffic) : Prop where
  started : ∀ w k, t.workers w = some k → ∃ p, t.calls k.starter = some p ∧ p.started = true
  opened : ∀ w k, t.workers w = some k → t.channels k.channel ≠ none
  apart : ∀ w w' k k', t.workers w = some k → t.workers w' = some k' → k.channel = k'.channel → w = w'
  asking : ∀ w k, t.workers w = some k → k.phase = .asking → k.answer = none
  waiting : ∀ c n, t.calls c = some (.waiting n) → ∃ w k, t.workers w = some k ∧ k.starter = c ∧ k.channel = n
  message : ∀ n ch w a, t.channels n = some ch → ch.message = some (w, a) →
    ∃ k, t.workers w = some k ∧ k.channel = n ∧ k.answer = some a
  told : ∀ c w a, t.calls c = some (.ended (.told w a)) → t.Told w c a

namespace Wired

theorem idle : Wired idle where
  started _ _ h := by cases h
  opened _ _ h := by cases h
  apart _ _ _ _ h := by cases h
  asking _ _ h := by cases h
  waiting _ _ h := by cases h
  message _ _ _ _ h := by cases h
  told _ _ _ h := by cases h

theorem setFlag (h : Wired t) (flag : Bool) : Wired (t.setFlag flag) :=
  ⟨h.started, h.opened, h.apart, h.asking, h.waiting, h.message, h.told⟩

theorem setCall (h : Wired t) {c : Nat} {p : Call}
    (hstarted : ∀ old, t.calls c = some old → old.started = true → p.started = true) (hwait : ∀ n, p ≠ .waiting n)
    (htold : ∀ w a, p = .ended (.told w a) → t.Told w c a) : Wired (t.setCall c p) where
  started w k hk := by
    obtain ⟨old, hold, hs⟩ := h.started w k hk
    rw [calls_setCall]
    by_cases hc : k.starter = c
    · rw [hc] at hold
      exact ⟨p, if_pos hc, hstarted old hold hs⟩
    · exact ⟨old, (if_neg hc).trans hold, hs⟩
  opened := h.opened
  apart := h.apart
  asking := h.asking
  waiting c' n hc' := by
    rw [calls_setCall] at hc'
    split at hc'
    · exact absurd (Option.some.inj hc') (hwait n)
    · exact h.waiting c' n hc'
  message := h.message
  told c' w a hc' := by
    rw [calls_setCall] at hc'
    split at hc'
    · next hcc =>
      rw [hcc]
      exact htold w a (Option.some.inj hc')
    · exact h.told c' w a hc'

theorem setWorker (h : Wired t) {w : Nat} {old k : Worker} (hw : t.workers w = some old)
    (hstarter : k.starter = old.starter) (hchannel : k.channel = old.channel)
    (hanswer : ∀ a, old.answer = some a → k.answer = some a) (hasking : k.phase ≠ .asking) :
    Wired (t.setWorker w k) := by
  -- each worker of the new state goes back to one of the old state, and each of the old state forth to a new one
  have back : ∀ w' k', (t.setWorker w k).workers w' = some k' →
      ∃ o, t.workers w' = some o ∧ k'.starter = o.starter ∧ k'.channel = o.channel := fun w' k' hk' => by
    rw [workers_setWorker] at hk'
    split at hk'
    · next hww =>
      cases hk'
      exact ⟨old, hww ▸ hw, hstarter, hchannel⟩
    · exact ⟨k', hk', rfl, rfl⟩
  have forth : ∀ w' o, t.workers w' = some o → ∃ k', (t.setWorker w k).workers w' = some k' ∧
      k'.starter = o.starter ∧ k'.channel = o.channel ∧ ∀ a, o.answer = some a → k'.answer = some a := fun w' o ho => by
    rw [workers_setWorker]
    by_cases hww : w' = w
    · rw [hww, hw] at ho
      cases ho
      exact ⟨k, if_pos hww, hstarter, hchannel, hanswer⟩
    · exact ⟨o, (if_neg hww).trans ho, rfl, rfl, fun _ ha => ha⟩
  refine ⟨fun w' k' hk' => ?_, fun w' k' hk' => ?_, fun w₁ w₂ k₁ k₂ h₁ h₂ heq => ?_, fun w' k' hk' hp => ?_,
    fun c n hc => ?_, fun n ch w' a hn hm => ?_, fun c w' a hc => ?_⟩
  · obtain ⟨o, ho, hs, -⟩ := back w' k' hk'
    rw [hs]
    exact h.started w' o ho
  · obtain ⟨o, ho, -, hch⟩ := back w' k' hk'
    rw [hch]
    exact h.opened w' o ho
  · obtain ⟨o₁, ho₁, -, hch₁⟩ := back w₁ k₁ h₁
    obtain ⟨o₂, ho₂, -, hch₂⟩ := back w₂ k₂ h₂
    exact h.apart w₁ w₂ o₁ o₂ ho₁ ho₂ (by rw [← hch₁, ← hch₂, heq])
  · rw [workers_setWorker] at hk'
    split at hk'
    · cases hk'
      exact absurd hp hasking
    · exact h.asking w' k' hk' hp
  · obtain ⟨w', o, ho, hs, hch⟩ := h.waiting c n hc
    obtain ⟨k', hk', hs', hch', -⟩ := forth w' o ho
    exact ⟨w', k', hk', hs'.trans hs, hch'.trans hch⟩
  · obtain ⟨o, ho, hch, ha⟩ := h.message n ch w' a hn hm
    obtain ⟨k', hk', -, hch', ha'⟩ := forth w' o ho
    exact ⟨k', hk', hch'.trans hch, ha' a ha⟩
  · obtain ⟨o, ho, hs, ha⟩ := h.told c w' a hc
    obtain ⟨k', hk', hs', -, ha'⟩ := forth w' o ho
    exact ⟨k', hk', hs'.trans hs, ha' a ha⟩

theorem setPhase (h : Wired t) {w : Nat} {k : Worker} (hw : t.workers w = some k) {phase : Phase}
    (hasking : phase ≠ .asking) : Wired (t.setWorker w { k with phase := phase }) :=
  h.setWorker hw rfl rfl (fun _ ha => ha) hasking

theorem setChannel (h : Wired t) {n : Nat} {ch : Channel} (hmessage : ∀ w a, ch.message = some (w, a) →
    ∃ k, t.workers w = some k ∧ k.channel = n ∧ k.answer = some a) : Wired (t.setChannel n ch) where
  started := h.started
  opened w k hk := by
    rw [channels_setChannel]
    split
    · exact Option.some_ne_none ch
    · exact h.opened w k hk
  apart := h.apart
  asking := h.asking
  waiting := h.waiting
  message n' ch' w a hn hm := by
    rw [channels_setChannel] at hn
    split at hn
    · next hnn =>
      cases hn
      rw [hnn]
      exact hmessage w a hm
    · exact h.message n' ch' w a hn hm
  told := h.told

theorem start (h : Wired t) {c w n : Nat} (call : t.calls c = some .claimed) (newWorker : t.workers w = none)
    (newChannel : t.channels n = none) :
    Wired (((t.setCall c (.waiting n)).setWorker w ⟨c, n, none, .asking⟩).setChannel n ⟨none, true, true⟩) := by
  -- what the old workers have is neither the new number nor the new channel
  have hw : ∀ w' k, t.workers w' = some k → w' ≠ w ∧ k.channel ≠ n := fun w' k hk => by
    refine ⟨fun hww => ?_, fun hnn => ?_⟩
    · rw [hww, newWorker] at hk
      cases hk
    · exact h.opened w' k hk (hnn ▸ newChannel)
  have hc : ∀ w' k, t.workers w' = some k → k.starter ≠ c := fun w' k hk hcc => by
    obtain ⟨p, hp, hs⟩ := h.started w' k hk
    rw [hcc, call] at hp
    cases hp
    cases hs
  refine ⟨fun w' k hk => ?_, fun w' k hk => ?_, fun w₁ w₂ k₁ k₂ h₁ h₂ heq => ?_, fun w' k hk hp => ?_,
    fun c' n' hc' => ?_, fun n' ch w' a hn hm => ?_, fun c' w' a hc' => ?_⟩ <;>
    simp only [calls_setChannel, calls_setWorker, calls_setCall, workers_setChannel, workers_setWorker,
      workers_setCall, channels_setChannel, channels_setWorker, channels_setCall, Told] at *
  · split at hk
    · cases hk
      exact ⟨_, if_pos rfl, rfl⟩
    · obtain ⟨p, hp, hs⟩ := h.started w' k hk
      exact ⟨p, (if_neg (hc w' k hk)).trans hp, hs⟩
  · split at hk
    · cases hk
      rw [if_pos rfl]
      exact Option.some_ne_none _
    · rw [if_neg (hw w' k hk).2]
      exact h.opened w' k hk
  · split at h₁ <;> split at h₂
    · next h₁w h₂w => rw [h₁w, h₂w]
    · cases h₁
      exact absurd heq.symm (hw w₂ k₂ h₂).2
    · cases h₂
      exact absurd heq (hw w₁ k₁ h₁).2
    · exact h.apart w₁ w₂ k₁ k₂ h₁ h₂ heq
  · split at hk
    · cases hk
      rfl
    · exact h.asking w' k hk hp
  · split at hc'
    · next hcc =>
      cases hc'
      exact ⟨w, _, if_pos rfl, hcc.symm, rfl⟩
    · obtain ⟨w', k, hk, hs, hn⟩ := h.waiting c' n' hc'
      exact ⟨w', k, (if_neg (hw w' k hk).1).trans hk, hs, hn⟩
  · split at hn
    · cases hn
      cases hm
    · obtain ⟨k, hk, hch, ha⟩ := h.message n' ch w' a hn hm
      exact ⟨k, (if_neg (hw w' k hk).1).trans hk, hch, ha⟩
  · split at hc'
    · cases hc'
    · obtain ⟨k, hk, hs, ha⟩ := h.told c' w' a hc'
      exact ⟨k, (if_neg (hw w' k hk).1).trans hk, hs, ha⟩

/-- What a call receives is the answer of the worker that it has started. -/
theorem told_of_message (h : Wired t) {c n w : Nat} {ch : Channel} {a : Answer}
    (call : t.calls c = some (.waiting n)) (channel : t.channels n = some ch) (message : ch.message = some (w, a)) :
    t.Told w c a := by
  obtain ⟨k, hk, hn, ha⟩ := h.message n ch w a channel message
  obtain ⟨w', k', hk', hs, hn'⟩ := h.waiting c n call
  have hww : w = w' := h.apart w w' k k' hk hk' (hn.trans hn'.symm)
  rw [hww, hk'] at hk
  cases hk
  exact ⟨k, hww ▸ hk', hs, ha⟩

theorem step (h : Wired t) (hstep : Step t a t') : Wired t' := by
  cases hstep with
  | claim new free =>
    refine (h.setCall (fun old hold => ?_) (fun n => Call.noConfusion) fun w a => Call.noConfusion).setFlag _
    rw [new] at hold
    cases hold
  | busy new taken =>
    refine h.setCall (fun old hold => ?_) (fun n => Call.noConfusion) fun w a he => by cases he
    rw [new] at hold
    cases hold
  | start call newWorker newChannel => exact h.start call newWorker newChannel
  | startFails call reason =>
    refine h.setCall (fun old hold hs => ?_) (fun n => Call.noConfusion) fun w a => Call.noConfusion
    rw [call] at hold
    cases hold
    cases hs
  | giveBack call =>
    refine (h.setCall (fun old hold hs => ?_) (fun n => Call.noConfusion) fun w a he => by cases he).setFlag _
    rw [call] at hold
    cases hold
    cases hs
  | returns worker phase answer =>
    refine h.setWorker worker rfl rfl (fun a ha => ?_) Phase.noConfusion
    rw [h.asking _ _ worker phase] at ha
    cases ha
  | panics worker phase => exact h.setPhase worker Phase.noConfusion
  | letGo worker phase => exact (h.setPhase worker Phase.noConfusion).setFlag _
  | unwind worker phase => exact (h.setPhase worker Phase.noConfusion).setFlag _
  | @send w k ch a' worker phase answer channel =>
    refine (h.setPhase worker Phase.noConfusion).setChannel fun w' a hm => ?_
    rw [workers_setWorker]
    unfold Channel.put at hm
    split at hm
    · cases hm
      exact ⟨_, if_pos rfl, rfl, answer⟩
    · obtain ⟨k', hk', hch, ha⟩ := h.message _ ch w' a channel hm
      split
      · next hww =>
        rw [hww, worker] at hk'
        cases hk'
        exact ⟨_, rfl, rfl, ha⟩
      · exact ⟨k', hk', hch, ha⟩
  | @close w k ch worker phase channel =>
    have hw : Wired (t.setWorker w { k with phase := .gone }) := h.setPhase worker Phase.noConfusion
    exact hw.setChannel fun w' a hm => hw.message _ ch w' a channel hm
  | receive call channel message =>
    refine (h.setCall (fun _ _ _ => rfl) (fun n => Call.noConfusion) fun w a he => ?_).setChannel fun w a hm => ?_
    · cases he
      exact h.told_of_message call channel message
    · cases hm
  | timeOut call channel =>
    refine (h.setCall (fun _ _ _ => rfl) (fun n => Call.noConfusion) fun w a he => by cases he).setChannel
      fun w a hm => ?_
    exact h.message _ _ w a channel hm
  | lose call channel message closed =>
    refine (h.setCall (fun _ _ _ => rfl) (fun n => Call.noConfusion) fun w a he => by cases he).setChannel
      fun w a hm => ?_
    rw [message] at hm
    cases hm

theorem run {t₀ : Traffic} (h₀ : Wired t₀) (h : Run t₀ t) : Wired t := by
  induction h with
  | refl => exact h₀
  | tail _ step ih => exact ih.step step

end Wired

/-! ## What callers can rely on -/

/-- The source is done with the party's query or was never asked, and the slot is still there. -/
def done (t : Traffic) : Party → Prop
  | .call c => ∃ reason, t.calls c = some (.unstarted reason)
  | .worker w => ∃ k, t.workers w = some k ∧ (k.phase = .returned ∨ k.phase = .panicked)

theorem call_of_done {c : Nat} {o : Option Call} (h : t.done (.call c)) (hc : t.calls c = o) :
    ∃ reason, o = some (.unstarted reason) := by
  obtain ⟨reason, hr⟩ := h
  exact ⟨reason, hc.symm.trans hr⟩

theorem phase_of_done {w : Nat} {k : Worker} {p : Phase} (h : t.done (.worker w)) (hk : t.workers w = some k)
    (hp : k.phase = p) : p = .returned ∨ p = .panicked := by
  obtain ⟨k', hk', hp'⟩ := h
  rw [hk] at hk'
  cases hk'
  rw [← hp]
  exact hp'

theorem exists_step_of_done {p : Party} (h : t.done p) : ∃ a t', Step t a t' ∧ a.actor = p := by
  cases p with
  | call c =>
    obtain ⟨reason, hc⟩ := h
    exact ⟨.giveBack c, _, .giveBack hc, rfl⟩
  | worker w =>
    obtain ⟨k, hk, hp⟩ := h
    rcases hp with hp | hp
    · exact ⟨.letGo w, _, .letGo hk hp, rfl⟩
    · exact ⟨.letGo w, _, .unwind hk hp, rfl⟩

theorem drops_of_done {p : Party} (h : t.done p) (hstep : Step t a t') (hp : a.actor = p) : a.drops = true := by
  subst hp
  cases hstep with
  | claim new free => exact absurd (call_of_done h new) nofun
  | busy new taken => exact absurd (call_of_done h new) nofun
  | start call newWorker newChannel => exact absurd (call_of_done h call) nofun
  | startFails call reason => exact absurd (call_of_done h call) nofun
  | giveBack call => rfl
  | returns worker phase answer => exact absurd (phase_of_done h worker phase) (by decide)
  | panics worker phase => exact absurd (phase_of_done h worker phase) (by decide)
  | letGo worker phase => rfl
  | unwind worker phase => rfl
  | send worker phase answer channel => exact absurd (phase_of_done h worker phase) (by decide)
  | close worker phase channel => exact absurd (phase_of_done h worker phase) (by decide)
  | receive call channel message => exact absurd (call_of_done h call) nofun
  | timeOut call channel => exact absurd (call_of_done h call) nofun
  | lose call channel message closed => exact absurd (call_of_done h call) nofun

theorem ended_step {c : Nat} {how : CallEnd} (hc : t.calls c = some (.ended how)) (hstep : Step t a t') :
    t'.calls c = some (.ended how) := by
  have other : ∀ c' p, t.calls c' = p → p ≠ some (.ended how) → c ≠ c' := fun c' p hp hne hcc => by
    rw [hcc, hp] at hc
    exact hne hc
  cases hstep with
  | claim new free => exact (if_neg (other _ _ new nofun)).trans hc
  | busy new taken => exact (if_neg (other _ _ new nofun)).trans hc
  | start call newWorker newChannel => exact (if_neg (other _ _ call nofun)).trans hc
  | startFails call reason => exact (if_neg (other _ _ call nofun)).trans hc
  | giveBack call => exact (if_neg (other _ _ call nofun)).trans hc
  | returns worker phase answer => exact hc
  | panics worker phase => exact hc
  | letGo worker phase => exact hc
  | unwind worker phase => exact hc
  | send worker phase answer channel => exact hc
  | close worker phase channel => exact hc
  | receive call channel message => exact (if_neg (other _ _ call nofun)).trans hc
  | timeOut call channel => exact (if_neg (other _ _ call nofun)).trans hc
  | lose call channel message closed => exact (if_neg (other _ _ call nofun)).trans hc

/-- There is one query at a time, and its answer goes to nobody but the call that asked. -/
structure SingleQuery (t : Traffic) : Prop where
  one_asks : ∀ w w', t.asks w → t.asks w' → w = w'
  one_slot : ∀ p q, t.holds p = true → t.holds q = true → p = q
  inFlight_iff : t.inFlight = true ↔ ∃ p, t.holds p = true ∧ ∀ q, t.holds q = true → q = p
  /-- Whoever drops a slot has the only one, so the flag that it clears is its own. -/
  drops_own : ∀ a t', Step t a t' → a.drops = true → t.holds a.actor = true ∧
    (∀ q, t.holds q = true → q = a.actor) ∧ t'.inFlight = false ∧ ∀ q, t'.holds q = false
  drops_of_clears : ∀ a t', Step t a t' → t.inFlight = true → t'.inFlight = false → a.drops = true
  /-- All that a holder can do whose query is over is to drop its slot. -/
  released : ∀ p, t.done p → (∃ a t', Step t a t' ∧ a.actor = p) ∧
    ∀ a t', Step t a t' → a.actor = p → a.drops = true ∧ t'.inFlight = false
  busy_starts_none : ∀ c, t.calls c = some (.ended .busy) → ∀ w k, t.workers w = some k → k.starter ≠ c
  told_by_own : ∀ c w a, t.calls c = some (.ended (.told w a)) → t.Told w c a
  told_once : ∀ c c' w a a', t.calls c = some (.ended (.told w a)) → t.calls c' = some (.ended (.told w a')) → c = c'
  /-- What a call has not waited for comes to nobody. -/
  late_lost : ∀ w k, t.workers w = some k → t.calls k.starter = some (.ended .timedOut) →
    ∀ c a, t.calls c ≠ some (.ended (.told w a))
  for_good : ∀ c how, t.calls c = some (.ended how) → ∀ a t', Step t a t' → t'.calls c = some (.ended how)

theorem holds_of_asks {w : Nat} (h : t.asks w) : t.holds (.worker w) = true := by
  obtain ⟨k, hk, hp⟩ := h
  rw [holds_worker hk, hp]
  rfl

theorem Slotted.drops_own (h : Slotted t) (hstep : Step t a t') (hd : a.drops = true) : t.holds a.actor = true ∧
    (∀ q, t.holds q = true → q = a.actor) ∧ t'.inFlight = false ∧ ∀ q, t'.holds q = false := by
  cases slots_step hstep with
  | still flag keeps slots =>
    rw [keeps] at hd
    cases hd
  | taken c free flag keeps slots =>
    rw [keeps] at hd
    cases hd
  | handed c w flag keeps giver slots =>
    rw [keeps] at hd
    cases hd
  | dropped flag drops holder slots =>
    exact ⟨holder, fun q hq => h.one q _ hq holder, flag, h.none_after_drop holder slots⟩

theorem drops_of_clears (hstep : Step t a t') (hset : t.inFlight = true) (hclear : t'.inFlight = false) :
    a.drops = true := by
  cases slots_step hstep with
  | still flag keeps slots =>
    rw [flag, hset] at hclear
    cases hclear
  | taken c free flag keeps slots =>
    rw [flag] at hclear
    cases hclear
  | handed c w flag keeps giver slots =>
    rw [flag, hset] at hclear
    cases hclear
  | dropped flag drops holder slots => exact drops

/-- **One query at a time**, in every state that any callers reach in any order of their steps. -/
theorem single_query (h : Run idle t) : SingleQuery t := by
  have hs := Slotted.run Slotted.idle h
  have hw := Wired.run Wired.idle h
  refine
    { one_asks := fun w w' ha ha' => ?_
      one_slot := hs.one
      inFlight_iff := ⟨fun hf => ?_, fun ⟨p, hp, _⟩ => hs.flag p hp⟩
      drops_own := fun a t' hstep hd => hs.drops_own hstep hd
      drops_of_clears := fun a t' hstep => drops_of_clears hstep
      released := fun p hd => ⟨exists_step_of_done hd, fun a t' hstep hp => ?_⟩
      busy_starts_none := fun c hc w k hk hkc => ?_
      told_by_own := hw.told
      told_once := fun c c' w a a' hc hc' => ?_
      late_lost := fun w k hk hlate c a hc => ?_
      for_good := fun c how hc a t' hstep => ended_step hc hstep }
  · exact Party.worker.inj (hs.one _ _ (holds_of_asks ha) (holds_of_asks ha'))
  · obtain ⟨p, hp⟩ := hs.slot hf
    exact ⟨p, hp, fun q hq => hs.one q p hq hp⟩
  · have hdrops := drops_of_done hd hstep hp
    exact ⟨hdrops, (hs.drops_own hstep hdrops).2.2.1⟩
  · obtain ⟨p, hp, hstarted⟩ := hw.started w k hk
    rw [hkc, hc] at hp
    cases hp
    cases hstarted
  · obtain ⟨k, hk, hkc, -⟩ := hw.told c w a hc
    obtain ⟨k', hk', hkc', -⟩ := hw.told c' w a' hc'
    rw [hk] at hk'
    cases hk'
    rw [← hkc, ← hkc']
  · obtain ⟨k', hk', hkc, -⟩ := hw.told c w a hc
    rw [hk] at hk'
    cases hk'
    rw [hkc, hc] at hlate
    cases hlate

/-- The answer to the call that gave up is lost while a third one has its own query. -/
theorem single_query_of_late_answer : ∃ t, Run idle t ∧ t.calls 0 = some (.ended .timedOut) ∧
    t.calls 1 = some (.ended .busy) ∧ (t.workers 0).map (·.phase) = some .gone ∧ t.asks 1 ∧ (∀ w, t.asks w → w = 1) ∧
    ∀ c a, t.calls c ≠ some (.ended (.told 0 a)) := by
  have asked := ((Run.refl idle).tail (.claim (c := 0) rfl rfl)).tail (.start (c := 0) (w := 0) (n := 0) rfl rfl rfl)
  have givenUp := (asked.tail (.timeOut (c := 0) rfl rfl)).tail (.busy (c := 1) rfl rfl)
  have returned := (givenUp.tail (.returns (w := 0) rfl rfl (.ok []))).tail (.letGo (w := 0) rfl rfl)
  have again := (returned.tail (.claim (c := 2) rfl rfl)).tail (.start (c := 2) (w := 1) (n := 1) rfl rfl rfl)
  have late := (again.tail (.send (w := 0) rfl rfl rfl rfl)).tail (.close (w := 0) rfl rfl rfl)
  have h := single_query late
  exact ⟨_, late, rfl, rfl, rfl, ⟨_, rfl, rfl⟩, fun w hw => h.one_asks w 1 hw ⟨_, rfl, rfl⟩, h.late_lost 0 _ rfl rfl⟩

end CpuMonitor.Traffic
