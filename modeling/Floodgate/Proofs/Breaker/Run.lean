import Floodgate.Breaker.Basic

/-!
# Runs of one breaker

A breaker is asked for decisions, told the outcomes of probes, and shown rules, in any order and at
any times. `BreakerCall` lists the calls, `Breaker.call` makes one of them, and `Breaker.answers` is
what a run of them answers. The statistics belong to no breaker: each call meets them as they are
at that time, so a call carries a store of its own.

Most of what is known of runs rests on `call_phase_cases`: a call leaves the phase alone, or it
enters another state at the time of the call. A phase goes through a 64-bit word when it is
entered; `Phase.unpack_pack` says that nothing is lost on the way as long as times have fifty-six
bits.
-/

set_option autoImplicit false

namespace Floodgate

/-! ## Phases in words -/

namespace Phase

/-- The code of a state fits the byte that a word has for it. -/
theorem code_lt (s : BreakerState) : s.code < 0x100 := by cases s <;> decide

theorem ofCode?_code (s : BreakerState) : BreakerState.ofCode? s.code = some s := by
  cases s <;> rfl

/-- The upper byte of the word is the code of the state. -/
theorem pack_div (p : Phase) : p.pack / timeSize = p.state.code := by
  have hlt : p.since % timeSize < timeSize := Nat.mod_lt _ (by decide)
  rw [pack, Nat.mul_comm, Nat.mul_add_div (by decide), Nat.div_eq_of_lt hlt, Nat.add_zero]

theorem pack_mod (p : Phase) : p.pack % timeSize = p.since % timeSize := by
  rw [pack, Nat.mul_comm, Nat.mul_add_mod, Nat.mod_mod]

/-- A word keeps the state, and of the time what it has room for. So a time of more than fifty-six
bits comes back as an earlier one. -/
theorem unpack_pack_eq (p : Phase) :
    unpack p.pack = { state := p.state, since := p.since % timeSize } := by
  rw [unpack, pack_div, pack_mod, Nat.mod_eq_of_lt (code_lt p.state), ofCode?_code]
  rfl

@[simp] theorem unpack_pack_state (p : Phase) : (unpack p.pack).state = p.state := by
  rw [unpack_pack_eq]

/-- **Nothing is lost of a phase whose time has fifty-six bits.** In milliseconds that is longer
than two million years, but a clock that is set by hand may be later. -/
theorem unpack_pack {p : Phase} (h : p.since < timeSize) : unpack p.pack = p := by
  rw [unpack_pack_eq, Nat.mod_eq_of_lt h]

end Phase

/-! ## Calls and their answers -/

/-- One call of a breaker. The statistics are those that the call meets. -/
inductive BreakerCall where
  | permit (stats : StatStore) (now : Nat) (draw : Float)
  | outcome (success : Bool) (stats : StatStore) (now : Nat)
  | update (edition : Edition DegradeRule) (version : Nat)

namespace BreakerCall

/-- When a call is made. Showing a rule takes no time. -/
def time? : BreakerCall → Option Nat
  | permit _ now _ => some now
  | outcome _ _ now => some now
  | update .. => none

/-- The time of a call fits a word beside a state. What is proved of runs whose calls are timely is
also true of the phases themselves, and not only of what a word has kept of them. -/
def IsTimely (c : BreakerCall) : Prop := ∀ now, c.time? = some now → now < Phase.timeSize

end BreakerCall

/-- What a call of a breaker answers. -/
inductive BreakerAnswer where
  | decided (d : Decision)
  /-- The outcome of a probe, and whether it changed the state. -/
  | reported (success changed : Bool)
  /-- Whether another rule is in force than before. -/
  | updated (replaced : Bool)
  deriving DecidableEq, Repr

namespace Breaker

/-- Makes one call. -/
def call (b : Breaker) : BreakerCall → BreakerAnswer × Breaker
  | .permit stats now draw =>
    let answer := b.permit stats now draw
    (.decided answer.1, answer.2.1)
  | .outcome success stats now =>
    let b' := (b.onProbeOutcome success stats now).1
    (.reported success (decide (b'.phase.state ≠ b.phase.state)), b')
  | .update edition version =>
    let answer := b.update edition version
    (.updated answer.1, answer.2)

/-- The breaker after a run of calls. -/
def afterCalls (b : Breaker) (cs : List BreakerCall) : Breaker :=
  cs.foldl (fun b c => (b.call c).2) b

/-- What a run of calls answers. -/
def answers (b : Breaker) : List BreakerCall → List BreakerAnswer
  | [] => []
  | c :: cs => (b.call c).1 :: (b.call c).2.answers cs

@[simp] theorem afterCalls_nil (b : Breaker) : b.afterCalls [] = b := rfl

@[simp] theorem afterCalls_cons (b : Breaker) (c : BreakerCall) (cs : List BreakerCall) :
    b.afterCalls (c :: cs) = (b.call c).2.afterCalls cs := rfl

/-- A run can be interrupted anywhere, which is how an induction from the end begins. -/
theorem afterCalls_append (b : Breaker) (cs cs' : List BreakerCall) :
    b.afterCalls (cs ++ cs') = (b.afterCalls cs).afterCalls cs' := List.foldl_append

/-! ## One call -/

-- Breakers are taken apart before they are compared: two whole breakers compared by `rfl` would make
-- the kernel count up to the limit of rejections, or to the size of a word.

@[simp] theorem recordReject_phase (b : Breaker) : b.recordReject.phase = b.phase := by
  obtain ⟨r, e, v, p, rejections⟩ := b
  show (recordReject ⟨r, e, v, p, rejections⟩).phase = p
  rfl

@[simp] theorem recordReject_resource (b : Breaker) : b.recordReject.resource = b.resource := by
  obtain ⟨r, e, v, p, rejections⟩ := b
  show (recordReject ⟨r, e, v, p, rejections⟩).resource = r
  rfl

@[simp] theorem recordReject_edition (b : Breaker) : b.recordReject.edition = b.edition := by
  obtain ⟨r, e, v, p, rejections⟩ := b
  show (recordReject ⟨r, e, v, p, rejections⟩).edition = e
  rfl

@[simp] theorem recordReject_version (b : Breaker) : b.recordReject.version = b.version := by
  obtain ⟨r, e, v, p, rejections⟩ := b
  show (recordReject ⟨r, e, v, p, rejections⟩).version = v
  rfl

@[simp] theorem enter_phase (b : Breaker) (next : Phase) (stats : StatStore) :
    (b.enter next stats).1.phase = Phase.unpack next.pack := rfl

@[simp] theorem enter_resource (b : Breaker) (next : Phase) (stats : StatStore) :
    (b.enter next stats).1.resource = b.resource := by
  obtain ⟨r, e, v, p, rejections⟩ := b
  show (enter ⟨r, e, v, p, rejections⟩ next stats).1.resource = r
  rfl

@[simp] theorem enter_edition (b : Breaker) (next : Phase) (stats : StatStore) :
    (b.enter next stats).1.edition = b.edition := by
  obtain ⟨r, e, v, p, rejections⟩ := b
  show (enter ⟨r, e, v, p, rejections⟩ next stats).1.edition = e
  rfl

@[simp] theorem enter_version (b : Breaker) (next : Phase) (stats : StatStore) :
    (b.enter next stats).1.version = b.version := by
  obtain ⟨r, e, v, p, rejections⟩ := b
  show (enter ⟨r, e, v, p, rejections⟩ next stats).1.version = v
  rfl

@[simp] theorem enter_rejections (b : Breaker) (next : Phase) (stats : StatStore) :
    (b.enter next stats).1.rejections = b.rejections := by
  obtain ⟨r, e, v, p, rejections⟩ := b
  show (enter ⟨r, e, v, p, rejections⟩ next stats).1.rejections = rejections
  rfl

theorem permit_decision (b : Breaker) (stats : StatStore) (now : Nat) (draw : Float) :
    (b.permit stats now draw).1 =
      (b.phase.evaluate b.rule (b.watched stats now) now draw).decision := by
  unfold permit
  cases (b.phase.evaluate b.rule (b.watched stats now) now draw).next <;> rfl

/-- A request leaves the phase as it is, or enters the next one, which goes through a word. -/
theorem permit_phase (b : Breaker) (stats : StatStore) (now : Nat) (draw : Float) :
    (b.permit stats now draw).2.1.phase =
      ((b.phase.evaluate b.rule (b.watched stats now) now draw).next.map
        fun next => Phase.unpack next.pack).getD b.phase := by
  unfold permit
  generalize b.phase.evaluate b.rule (b.watched stats now) now draw = t
  obtain ⟨d, next⟩ := t
  cases next with
  | none => by_cases hd : d = .reject <;> simp [hd]
  | some next => by_cases hd : d = .reject <;> simp [hd]

/-- The outcome of a probe does the same with the phase that it leads to, if to any. -/
theorem onProbeOutcome_phase (b : Breaker) (success : Bool) (stats : StatStore) (now : Nat) :
    (b.onProbeOutcome success stats now).1.phase =
      ((b.phase.afterProbe? success now).map fun next => Phase.unpack next.pack).getD b.phase := by
  unfold onProbeOutcome
  cases b.phase.afterProbe? success now <;> rfl

/-- Requests and outcomes leave a breaker its resource and its rule. Only an update changes the
rule, and nothing changes the resource. -/
theorem permit_rule (b : Breaker) (stats : StatStore) (now : Nat) (draw : Float) :
    (b.permit stats now draw).2.1.resource = b.resource ∧
      (b.permit stats now draw).2.1.edition = b.edition ∧
      (b.permit stats now draw).2.1.version = b.version := by
  unfold permit
  generalize b.phase.evaluate b.rule (b.watched stats now) now draw = t
  obtain ⟨d, next⟩ := t
  cases next with
  | none => by_cases hd : d = .reject <;> simp [hd]
  | some next => by_cases hd : d = .reject <;> simp [hd]

theorem onProbeOutcome_rule (b : Breaker) (success : Bool) (stats : StatStore) (now : Nat) :
    (b.onProbeOutcome success stats now).1.resource = b.resource ∧
      (b.onProbeOutcome success stats now).1.edition = b.edition ∧
      (b.onProbeOutcome success stats now).1.version = b.version := by
  unfold onProbeOutcome
  cases b.phase.afterProbe? success now <;> simp

/-- **A new rule leaves the phase alone.** A breaker that is open stays open, for as long as its new
rule says. -/
theorem update_phase (b : Breaker) (edition : Edition DegradeRule) (version : Nat) :
    (b.update edition version).2.phase = b.phase := by
  unfold update
  split <;> rfl

theorem update_resource (b : Breaker) (edition : Edition DegradeRule) (version : Nat) :
    (b.update edition version).2.resource = b.resource := by
  unfold update
  split <;> rfl

/-- A rule of a book that is no older takes effect, and of the breaker nothing else changes. A rule
of an older book comes too late and is passed over. -/
theorem update_of_le {b : Breaker} {version : Nat} (h : b.version ≤ version)
    (edition : Edition DegradeRule) :
    (b.update edition version).2 = { b with edition, version } := by
  rw [update, if_neg (by omega)]

end Breaker

/-! ## What a call does to the phase -/

/-- A request that enters a phase enters another state, at its own time. So no transition starts the
period of a state anew. -/
theorem Phase.evaluate_next {p next : Phase} {rule : DegradeRule} {w : Window} {now : Nat}
    {draw : Float} (h : (p.evaluate rule w now draw).next = some next) :
    next.since = now ∧ next.state ≠ p.state := by
  unfold evaluate at h
  -- every way out of a state leads to another one and takes the present time along
  cases hs : p.state with
  | closed =>
    rw [hs] at h
    dsimp only at h
    split at h
    · cases h
      simp
    · cases h
  | «open» =>
    rw [hs] at h
    dsimp only at h
    split at h
    · cases h
    · split at h <;> cases h <;> simp
  | resumeDetectively =>
    rw [hs] at h
    dsimp only at h
    split at h
    · cases h
    · cases h
      simp
  | resumeGradually =>
    rw [hs] at h
    dsimp only at h
    split at h
    · split at h
      · cases h
      · cases h
        simp
    · cases h
      simp

theorem Phase.afterProbe?_next {p next : Phase} {success : Bool} {now : Nat}
    (h : p.afterProbe? success now = some next) : next.since = now ∧ next.state ≠ p.state := by
  unfold afterProbe? at h
  split at h
  · rename_i hs
    cases h
    cases success <;> simp [hs]
  · cases h

namespace Breaker

/-- **What a call does to the phase**: nothing, or it enters another state at its own time. -/
theorem call_phase_cases (b : Breaker) (c : BreakerCall) :
    (b.call c).2.phase = b.phase ∨
    ∃ next : Phase, c.time? = some next.since ∧ next.state ≠ b.phase.state ∧
      (b.call c).2.phase = Phase.unpack next.pack := by
  cases c with
  | permit stats now draw =>
    have hp := b.permit_phase stats now draw
    cases h : (b.phase.evaluate b.rule (b.watched stats now) now draw).next with
    | none =>
      rw [h] at hp
      exact Or.inl hp
    | some next =>
      rw [h] at hp
      obtain ⟨hsince, hstate⟩ := Phase.evaluate_next h
      exact Or.inr ⟨next, hsince ▸ rfl, hstate, hp⟩
  | outcome success stats now =>
    have hp := b.onProbeOutcome_phase success stats now
    cases h : b.phase.afterProbe? success now with
    | none =>
      rw [h] at hp
      exact Or.inl hp
    | some next =>
      rw [h] at hp
      obtain ⟨hsince, hstate⟩ := Phase.afterProbe?_next h
      exact Or.inr ⟨next, hsince ▸ rfl, hstate, hp⟩
  | update edition version => exact Or.inl (b.update_phase edition version)

end Breaker
end Floodgate
