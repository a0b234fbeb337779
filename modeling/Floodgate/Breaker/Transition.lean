import Floodgate.Breaker.State
import Floodgate.Rule.Basic
import Floodgate.Stats.Window

/-!
# Transitions of a breaker

`Phase.evaluate` decides one request from the phase of the breaker, its rule, the traffic it
watches, the time, and a number drawn from `[0, 1)`. It may enter a new phase with the same step;
the new phase always begins now. `Phase.afterProbe?` decides what the outcome of a probe changes.
-/

set_option autoImplicit false

namespace Floodgate

/-- What happens to a request. -/
inductive Decision where
  | permit
  /-- It passes, and its outcome decides about the breaker. -/
  | probe
  | reject
  deriving DecidableEq, Repr

namespace Decision

def isAdmitted : Decision → Bool
  | reject => false
  | _ => true

def name : Decision → String
  | permit => "permit"
  | probe => "probe"
  | reject => "reject"

end Decision

/-- What becomes of a request, and the phase that begins with it. -/
structure Transition where
  decision : Decision
  next : Option Phase := none
  deriving DecidableEq, Repr

/-- Whether the traffic in a window trips a breaker. -/
def DegradeRule.trips (rule : DegradeRule) (w : Window) : Bool :=
  w.tally.completed != 0 && decide (rule.minRequests ≤ w.tally.completed) &&
    match rule.strategy with
    | .totalErrors n => decide (n ≤ w.tally.errors)
    | .errorRatio x => decide (x ≤ w.errorRatio)

/-- The share of requests that pass, so long after gradual recovery began. -/
def admittedShare (elapsed windowMs : Nat) : Float :=
  if windowMs = 0 then 1.0
  else (UInt64.ofNat elapsed).toFloat / (UInt64.ofNat windowMs).toFloat

/-- A request passes if its draw lies within the share of requests that pass, and that is not
zero. -/
def gradualDecision (elapsed windowMs : Nat) (draw : Float) : Decision :=
  let share := admittedShare elapsed windowMs
  if draw ≤ share ∧ 0.0 < share then .permit else .reject

namespace Phase

def stay (decision : Decision) : Transition := { decision }

def enter (state : BreakerState) (now : Nat) (decision : Decision) : Transition :=
  { decision, next := some { state, since := now } }

def evaluate (p : Phase) (rule : DegradeRule) (w : Window) (now : Nat) (draw : Float) :
    Transition :=
  let elapsed := now - p.since
  match p.state with
  | .closed => if rule.trips w then enter .open now .reject else stay .permit
  | .open =>
    if elapsed ≤ rule.breakMs then stay .reject
    else
      match rule.resume with
      | .immediate => enter .closed now .permit
      | .detective => enter .resumeDetectively now .probe
      | .gradual windowMs => enter .resumeGradually now (gradualDecision 0 windowMs draw)
  | .resumeDetectively =>
    match rule.resume with
    | .detective => stay .reject
    | _ => enter .closed now .permit
  | .resumeGradually =>
    match rule.resume with
    | .gradual windowMs =>
      if elapsed < windowMs then stay (gradualDecision elapsed windowMs draw)
      else enter .closed now .permit
    | _ => enter .closed now .permit

/-- The phase that the outcome of a probe begins, if the breaker still waits for one. -/
def afterProbe? (p : Phase) (success : Bool) (now : Nat) : Option Phase :=
  if p.state = .resumeDetectively then
    some { state := if success then .closed else .open, since := now }
  else none

end Phase
end Floodgate
