import CpuMonitor.Proofs.Watcher.Sample

/-!
# Queries of many callers

How the queries of one watcher run when any number of callers ask at the same time. A caller claims a flag, starts a
worker, and waits for its answer on a channel of their own; the worker asks the source, gives the flag back, sends the
answer and closes the channel. The claim is a slot that the caller holds until the worker takes it over, and that
whoever holds it drops in the end.

* `Call`, `Worker`, `Channel` : what has become of one call, of one worker, and of the channel between them.
* `Traffic` : the flag and all calls, workers and channels; `Traffic.holds` tells who has a live slot.
* `Step`, `Run` : what one party can do next, and any number of such steps in any order.
* `Only` : a run that leaves all but one call, one worker and one channel as they were.
* `run_sample`, `run_release` : the samples of one caller are such runs.
-/

set_option autoImplicit false

namespace CpuMonitor

/-! ## Calls, workers and channels -/

/-- What a worker tells of a query that the source has answered. -/
abbrev Answer : Type := Except HostError (List CpuTimes)

inductive CallEnd where
  | busy
  | refused (reason : String)
  | told (worker : Nat) (answer : Answer)
  | timedOut
  | lost

def CallEnd.result (timeout : Duration) : CallEnd → Except WatcherError (List CpuTimes)
  | .busy => .error .busy
  | .refused reason => .error (.spawn reason)
  | .told _ (.ok cores) => .ok cores
  | .told _ (.error e) => .error (.query e)
  | .timedOut => .error (.timeout timeout)
  | .lost => .error .workerLost

/-- What the sample of a call tells. -/
def CallEnd.verdict (timeout : Duration) (how : CallEnd) : Except WatcherError Unit :=
  (how.result timeout).bind fun cores => if cores.isEmpty then .error .noCores else .ok ()

inductive Call where
  /-- The call has a slot, and no worker yet. -/
  | claimed
  | unstarted (reason : String)
  | waiting (channel : Nat)
  | ended (how : CallEnd)

namespace Call

def holdsSlot : Call → Bool
  | .claimed => true
  | .unstarted _ => true
  | _ => false

def started : Call → Bool
  | .waiting _ => true
  | .ended (.told _ _) => true
  | .ended .timedOut => true
  | .ended .lost => true
  | _ => false

end Call

inductive Phase where
  | asking
  | returned
  | panicked
  /-- The slot is gone, and the answer is to be sent. -/
  | sending
  | closing
  | gone
  deriving DecidableEq

def Phase.holdsSlot : Phase → Bool
  | .asking => true
  | .returned => true
  | .panicked => true
  | _ => false

structure Worker where
  starter : Nat
  channel : Nat
  answer : Option Answer
  phase : Phase

structure Channel where
  /-- An answer that was sent and not yet received, and the worker that sent it. -/
  message : Option (Nat × Answer)
  sender : Bool
  receiver : Bool

/-- The channel after a worker has sent its answer, which is lost if nobody receives it. -/
def Channel.put (ch : Channel) (worker : Nat) (answer : Answer) : Channel :=
  if ch.receiver then { ch with message := some (worker, answer) } else ch

/-! ## States -/

/-- The calls, workers and channels by their numbers, of which there is no end. -/
structure Traffic where
  inFlight : Bool
  calls : Nat → Option Call
  workers : Nat → Option Worker
  channels : Nat → Option Channel

/-- Who may hold a slot. -/
inductive Party where
  | call (c : Nat)
  | worker (w : Nat)
  deriving DecidableEq

namespace Traffic

def idle : Traffic := ⟨false, fun _ => none, fun _ => none, fun _ => none⟩

def setFlag (t : Traffic) (flag : Bool) : Traffic := { t with inFlight := flag }

def setCall (t : Traffic) (c : Nat) (p : Call) : Traffic :=
  { t with calls := fun c' => if c' = c then some p else t.calls c' }

def setWorker (t : Traffic) (w : Nat) (k : Worker) : Traffic :=
  { t with workers := fun w' => if w' = w then some k else t.workers w' }

def setChannel (t : Traffic) (n : Nat) (ch : Channel) : Traffic :=
  { t with channels := fun n' => if n' = n then some ch else t.channels n' }

/-- The party has a slot that it has not dropped. -/
def holds (t : Traffic) : Party → Bool
  | .call c => (t.calls c).any Call.holdsSlot
  | .worker w => (t.workers w).any fun k => k.phase.holdsSlot

def asks (t : Traffic) (w : Nat) : Prop := ∃ k, t.workers w = some k ∧ k.phase = .asking

section Fields
variable (t : Traffic) (flag : Bool) (c w n : Nat) (p : Call) (k : Worker) (ch : Channel)

@[simp] theorem inFlight_setFlag : (t.setFlag flag).inFlight = flag := rfl
@[simp] theorem calls_setFlag : (t.setFlag flag).calls = t.calls := rfl
@[simp] theorem workers_setFlag : (t.setFlag flag).workers = t.workers := rfl
@[simp] theorem channels_setFlag : (t.setFlag flag).channels = t.channels := rfl

@[simp] theorem inFlight_setCall : (t.setCall c p).inFlight = t.inFlight := rfl
@[simp] theorem calls_setCall (c' : Nat) : (t.setCall c p).calls c' = if c' = c then some p else t.calls c' := rfl
@[simp] theorem workers_setCall : (t.setCall c p).workers = t.workers := rfl
@[simp] theorem channels_setCall : (t.setCall c p).channels = t.channels := rfl

@[simp] theorem inFlight_setWorker : (t.setWorker w k).inFlight = t.inFlight := rfl
@[simp] theorem calls_setWorker : (t.setWorker w k).calls = t.calls := rfl
@[simp] theorem workers_setWorker (w' : Nat) :
    (t.setWorker w k).workers w' = if w' = w then some k else t.workers w' := rfl
@[simp] theorem channels_setWorker : (t.setWorker w k).channels = t.channels := rfl

@[simp] theorem inFlight_setChannel : (t.setChannel n ch).inFlight = t.inFlight := rfl
@[simp] theorem calls_setChannel : (t.setChannel n ch).calls = t.calls := rfl
@[simp] theorem workers_setChannel : (t.setChannel n ch).workers = t.workers := rfl
@[simp] theorem channels_setChannel (n' : Nat) :
    (t.setChannel n ch).channels n' = if n' = n then some ch else t.channels n' := rfl

@[simp] theorem holds_setFlag (q : Party) : (t.setFlag flag).holds q = t.holds q := by cases q <;> rfl

@[simp] theorem holds_setChannel (q : Party) : (t.setChannel n ch).holds q = t.holds q := by cases q <;> rfl

@[simp] theorem holds_setCall (q : Party) :
    (t.setCall c p).holds q = if q = .call c then p.holdsSlot else t.holds q := by
  cases q with
  | call c' =>
    by_cases h : c' = c
    · subst h
      simp [holds]
    · simp [holds, h]
  | worker w => rfl

@[simp] theorem holds_setWorker (q : Party) :
    (t.setWorker w k).holds q = if q = .worker w then k.phase.holdsSlot else t.holds q := by
  cases q with
  | call c => rfl
  | worker w' =>
    by_cases h : w' = w
    · subst h
      simp [holds]
    · simp [holds, h]

end Fields

/-! ## Steps -/

inductive Action where
  | claim (c : Nat)
  | start (c : Nat)
  | startFails (c : Nat)
  | giveBack (c : Nat)
  | returns (w : Nat)
  | panics (w : Nat)
  | letGo (w : Nat)
  | send (w : Nat)
  | close (w : Nat)
  | receive (c : Nat)
  | timeOut (c : Nat)
  | lose (c : Nat)

namespace Action

def actor : Action → Party
  | .claim c | .start c | .startFails c | .giveBack c | .receive c | .timeOut c | .lose c => .call c
  | .returns w | .panics w | .letGo w | .send w | .close w => .worker w

/-- A slot is dropped, which clears the flag whatever it was. -/
def drops : Action → Bool
  | .giveBack _ | .letGo _ => true
  | _ => false

end Action

inductive Step : Traffic → Action → Traffic → Prop where
  | claim {t : Traffic} {c : Nat} (new : t.calls c = none) (free : t.inFlight = false) :
      Step t (.claim c) ((t.setCall c .claimed).setFlag true)
  | busy {t : Traffic} {c : Nat} (new : t.calls c = none) (taken : t.inFlight = true) :
      Step t (.claim c) (t.setCall c (.ended .busy))
  | start {t : Traffic} {c w n : Nat} (call : t.calls c = some .claimed) (newWorker : t.workers w = none)
      (newChannel : t.channels n = none) :
      Step t (.start c)
        (((t.setCall c (.waiting n)).setWorker w ⟨c, n, none, .asking⟩).setChannel n ⟨none, true, true⟩)
  | startFails {t : Traffic} {c : Nat} (call : t.calls c = some .claimed) (reason : String) :
      Step t (.startFails c) (t.setCall c (.unstarted reason))
  | giveBack {t : Traffic} {c : Nat} {reason : String} (call : t.calls c = some (.unstarted reason)) :
      Step t (.giveBack c) ((t.setCall c (.ended (.refused reason))).setFlag false)
  | returns {t : Traffic} {w : Nat} {k : Worker} (worker : t.workers w = some k) (phase : k.phase = .asking)
      (answer : Answer) :
      Step t (.returns w) (t.setWorker w { k with answer := some answer, phase := .returned })
  | panics {t : Traffic} {w : Nat} {k : Worker} (worker : t.workers w = some k) (phase : k.phase = .asking) :
      Step t (.panics w) (t.setWorker w { k with phase := .panicked })
  | letGo {t : Traffic} {w : Nat} {k : Worker} (worker : t.workers w = some k) (phase : k.phase = .returned) :
      Step t (.letGo w) ((t.setWorker w { k with phase := .sending }).setFlag false)
  | unwind {t : Traffic} {w : Nat} {k : Worker} (worker : t.workers w = some k) (phase : k.phase = .panicked) :
      Step t (.letGo w) ((t.setWorker w { k with phase := .closing }).setFlag false)
  | send {t : Traffic} {w : Nat} {k : Worker} {ch : Channel} {a : Answer} (worker : t.workers w = some k)
      (phase : k.phase = .sending) (answer : k.answer = some a) (channel : t.channels k.channel = some ch) :
      Step t (.send w) ((t.setWorker w { k with phase := .closing }).setChannel k.channel (ch.put w a))
  | close {t : Traffic} {w : Nat} {k : Worker} {ch : Channel} (worker : t.workers w = some k)
      (phase : k.phase = .closing) (channel : t.channels k.channel = some ch) :
      Step t (.close w) ((t.setWorker w { k with phase := .gone }).setChannel k.channel { ch with sender := false })
  | receive {t : Traffic} {c n w : Nat} {ch : Channel} {a : Answer} (call : t.calls c = some (.waiting n))
      (channel : t.channels n = some ch) (message : ch.message = some (w, a)) :
      Step t (.receive c) ((t.setCall c (.ended (.told w a))).setChannel n ⟨none, ch.sender, false⟩)
  /-- This can happen at any time, as the steps know no clock. -/
  | timeOut {t : Traffic} {c n : Nat} {ch : Channel} (call : t.calls c = some (.waiting n))
      (channel : t.channels n = some ch) :
      Step t (.timeOut c) ((t.setCall c (.ended .timedOut)).setChannel n { ch with receiver := false })
  | lose {t : Traffic} {c n : Nat} {ch : Channel} (call : t.calls c = some (.waiting n))
      (channel : t.channels n = some ch) (message : ch.message = none) (closed : ch.sender = false) :
      Step t (.lose c) ((t.setCall c (.ended .lost)).setChannel n { ch with receiver := false })

inductive Run : Traffic → Traffic → Prop where
  | refl (t : Traffic) : Run t t
  | tail {t t' t'' : Traffic} {a : Action} (run : Run t t') (step : Step t' a t'') : Run t t''

/-! ## One caller -/

variable {t : Traffic}

theorem Run.one {t t' : Traffic} {a : Action} (h : Step t a t') : Run t t' := (Run.refl t).tail h

theorem Run.trans {t t' t'' : Traffic} (h : Run t t') (h' : Run t' t'') : Run t t'' := by
  induction h' with
  | refl => exact h
  | tail _ step ih => exact ih.tail step

/-- Only what has these numbers is changed. -/
structure Only (c w n : Nat) (t t' : Traffic) : Prop where
  calls : ∀ c', c' ≠ c → t'.calls c' = t.calls c'
  workers : ∀ w', w' ≠ w → t'.workers w' = t.workers w'
  channels : ∀ n', n' ≠ n → t'.channels n' = t.channels n'

section Alone
variable {c w n : Nat} (new : t.calls c = none) (newWorker : t.workers w = none) (newChannel : t.channels n = none)
  (free : t.inFlight = false)
include new newWorker newChannel free

/-- A call that asks has the slot no more, but its worker has. -/
theorem run_asked : Run t (((((t.setCall c .claimed).setFlag true).setCall c (.waiting n)).setWorker w
    ⟨c, n, none, .asking⟩).setChannel n ⟨none, true, true⟩) :=
  (Run.one (.claim new free)).tail (.start (if_pos rfl) newWorker newChannel)

theorem run_told (a : Answer) : ∃ t', Run t t' ∧ t'.calls c = some (.ended (.told w a)) ∧ t'.inFlight = false ∧
    (t'.workers w).isSome = true ∧ Only c w n t t' := by
  have asked := run_asked new newWorker newChannel free
  have returned := (asked.tail (.returns (w := w) (by simp; rfl) rfl a)).tail (.letGo (w := w) (by simp; rfl) rfl)
  have sent := returned.tail (.send (w := w) (by simp; rfl) rfl rfl (by simp; rfl))
  exact ⟨_, sent.tail (.receive (c := c) (by simp; rfl) (by simp; rfl) rfl), by simp, by simp, by simp,
    fun c' h => by simp [h], fun w' h => by simp [h], fun n' h => by simp [h]⟩

theorem run_lost : ∃ t', Run t t' ∧ t'.calls c = some (.ended .lost) ∧ t'.inFlight = false ∧
    (t'.workers w).isSome = true ∧ Only c w n t t' := by
  have asked := run_asked new newWorker newChannel free
  have panicked := (asked.tail (.panics (w := w) (by simp; rfl) rfl)).tail (.unwind (w := w) (by simp; rfl) rfl)
  have closed := panicked.tail (.close (w := w) (by simp; rfl) rfl (by simp; rfl))
  exact ⟨_, closed.tail (.lose (c := c) (by simp; rfl) (by simp; rfl) rfl rfl), by simp, by simp, by simp,
    fun c' h => by simp [h], fun w' h => by simp [h], fun n' h => by simp [h]⟩

theorem run_timedOut : ∃ t', Run t t' ∧ t'.calls c = some (.ended .timedOut) ∧ t'.inFlight = true ∧ t'.asks w ∧
    Only c w n t t' := by
  have asked := run_asked new newWorker newChannel free
  exact ⟨_, asked.tail (.timeOut (c := c) (by simp; rfl) (by simp; rfl)), by simp, by simp,
    ⟨⟨c, n, none, .asking⟩, by simp, rfl⟩, fun c' h => by simp [h], fun w' h => by simp [h], fun n' h => by simp [h]⟩

end Alone

theorem run_refused {c : Nat} (new : t.calls c = none) (free : t.inFlight = false) (reason : String) (w n : Nat) :
    ∃ t', Run t t' ∧ t'.calls c = some (.ended (.refused reason)) ∧ t'.inFlight = false ∧
      t'.workers w = t.workers w ∧ Only c w n t t' := by
  have failed := (Run.one (.claim new free)).tail (.startFails (if_pos rfl) reason)
  exact ⟨_, failed.tail (.giveBack (c := c) (by simp; rfl)), by simp, by simp, by simp,
    fun c' h => by simp [h], fun w' h => by simp, fun n' h => by simp⟩

/-- How a call ends whose query ends so. -/
def endOf (w : Nat) : QueryOutcome → CallEnd
  | .cores cores => .told w (.ok cores)
  | .failed e => .told w (.error e)
  | .panicked => .lost
  | .hung => .timedOut
  | .refused reason => .refused reason

theorem verdict_endOf (timeout : Duration) (w : Nat) (query : QueryOutcome) :
    (endOf w query).verdict timeout = query.result timeout := by
  cases query with
  | cores cores => cases cores <;> rfl
  | failed e => rfl
  | panicked => rfl
  | hung => rfl
  | refused reason => rfl

/-- A call runs to each of its ends. -/
theorem run_endOf {c w n : Nat} (new : t.calls c = none) (newWorker : t.workers w = none)
    (newChannel : t.channels n = none) (free : t.inFlight = false) (query : QueryOutcome) :
    ∃ t', Run t t' ∧ t'.calls c = some (.ended (endOf w query)) ∧ t'.inFlight = (query == .hung) ∧
      (query = .hung → t'.asks w) ∧ (t'.workers w).isSome = query.asks ∧ Only c w n t t' := by
  cases query with
  | cores cores =>
    obtain ⟨t', hrun, hcall, hflag, hworker, honly⟩ := run_told new newWorker newChannel free (.ok cores)
    exact ⟨t', hrun, hcall, hflag, nofun, hworker, honly⟩
  | failed e =>
    obtain ⟨t', hrun, hcall, hflag, hworker, honly⟩ := run_told new newWorker newChannel free (.error e)
    exact ⟨t', hrun, hcall, hflag, nofun, hworker, honly⟩
  | panicked =>
    obtain ⟨t', hrun, hcall, hflag, hworker, honly⟩ := run_lost new newWorker newChannel free
    exact ⟨t', hrun, hcall, hflag, nofun, hworker, honly⟩
  | hung =>
    obtain ⟨t', hrun, hcall, hflag, hasks, honly⟩ := run_timedOut new newWorker newChannel free
    obtain ⟨k, hk, -⟩ := id hasks
    exact ⟨t', hrun, hcall, hflag, fun _ => hasks, by rw [hk]; rfl, honly⟩
  | refused reason =>
    obtain ⟨t', hrun, hcall, hflag, hworker, honly⟩ := run_refused new free reason w n
    exact ⟨t', hrun, hcall, hflag, nofun, by rw [hworker, newWorker]; rfl, honly⟩

/-- A sample as a call: it found a query out, or ended by a query of its own worker. -/
def Made (t : Traffic) (timeout : Duration) (c w : Nat) (query : QueryOutcome) (result : Except WatcherError Unit) :
    Prop :=
  ∃ how, t.calls c = some (.ended how) ∧ result = how.verdict timeout ∧
    (how = .busy ∧ t.workers w = none ∨ how = endOf w query ∧ (t.workers w).isSome = query.asks)

/-- A sample is a run of one call, with the same flags and the same result. -/
theorem run_sample {x : Watcher} (hs : x.selection.samples = true) (query : QueryOutcome) (time : Instant)
    (flag : t.inFlight = x.inFlight) {c w n : Nat} (new : t.calls c = none) (newWorker : t.workers w = none)
    (newChannel : t.channels n = none) :
    ∃ t', Run t t' ∧ t'.inFlight = (x.sample query time).2.inFlight ∧
      t'.Made x.timeout c w query (x.sample query time).1 ∧
      (x.inFlight = false → (x.sample query time).2.inFlight = true → t'.asks w) ∧ Only c w n t t' := by
  cases hf : x.inFlight with
  | true =>
    rw [hf] at flag
    rw [Watcher.sample_of_busy hs hf]
    refine ⟨_, Run.one (.busy new flag), flag.trans hf.symm, ⟨.busy, if_pos rfl, rfl, .inl ⟨rfl, newWorker⟩⟩, nofun, ?_⟩
    exact ⟨fun c' h => if_neg h, fun _ _ => rfl, fun _ _ => rfl⟩
  | false =>
    rw [hf] at flag
    obtain ⟨hresult, hflag, -⟩ := Watcher.sample_of_idle hs hf query time
    obtain ⟨t', hrun, hcall, hflag', hasks, hworker, honly⟩ := run_endOf new newWorker newChannel flag query
    refine ⟨t', hrun, hflag'.trans hflag.symm, ⟨_, hcall, hresult.trans (verdict_endOf ..).symm, .inr ⟨rfl, hworker⟩⟩,
      fun _ hset => ?_, honly⟩
    rw [hflag] at hset
    exact hasks (eq_of_beq hset)

/-- A query that comes back is a run of its worker, which clears the flag. -/
theorem run_release {x : Watcher} {w : Nat} (h : t.asks w) (late : Answer) :
    ∃ t', Run t t' ∧ t'.inFlight = x.release.inFlight ∧ t'.calls = t.calls ∧ t'.channels = t.channels ∧
      ∀ w', (t'.workers w').isSome = (t.workers w').isSome := by
  obtain ⟨k, hk, hp⟩ := h
  have returned := Run.one (.returns hk hp late)
  refine ⟨_, returned.tail (.letGo (w := w) (if_pos rfl) rfl), rfl, rfl, rfl, fun w' => ?_⟩
  by_cases hw : w' = w
  · simp [hw, hk]
  · simp [hw]

end Traffic

end CpuMonitor
