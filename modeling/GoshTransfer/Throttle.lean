import Mathlib.Algebra.Order.Field.Rat
import Mathlib.Tactic.FieldSimp
import Mathlib.Tactic.Linarith

set_option autoImplicit false

namespace GoshTransfer

abbrev Seconds := ℚ

def idleReset : Seconds := 2

structure Throttle where
  rateBps : Nat
  windowStart : Seconds
  bytesInWindow : Nat
deriving DecidableEq

def Throttle.new (rateBps : Nat) (now : Seconds) : Throttle := ⟨rateBps, now, 0⟩

-- One call of pace: the number of bytes, the three readings of the clock (the
-- second one is made at a reset only) and the time of return.
structure Pace where
  len : Nat
  arrival : Seconds
  restart : Seconds
  measured : Seconds
  finish : Seconds
deriving DecidableEq

def Throttle.window (throttle : Throttle) (call : Pace) : Throttle :=
  if call.arrival - throttle.windowStart > idleReset then
    { throttle with windowStart := call.restart, bytesInWindow := 0 } else throttle

def Throttle.pace (throttle : Throttle) (call : Pace) : Throttle :=
  if throttle.rateBps = 0 then throttle
  else { throttle.window call with bytesInWindow := (throttle.window call).bytesInWindow + call.len }

def Throttle.expected (throttle : Throttle) : Seconds := throttle.bytesInWindow / throttle.rateBps

-- How long pace sleeps, with its counters as they are after the addition.
def Throttle.sleep (throttle : Throttle) (measured : Seconds) : Seconds :=
  if throttle.expected > measured - throttle.windowStart then throttle.expected -
    (measured - throttle.windowStart) else 0

-- The clock never goes back, calls do not overlap and a sleep may last longer.
structure Timely (throttle : Throttle) (previous : Seconds) (call : Pace) : Prop where
  arrival : previous ≤ call.arrival
  restart : call.arrival ≤ call.restart
  measured : call.restart ≤ call.measured
  finish : call.measured + (throttle.pace call).sleep call.measured ≤ call.finish

-- Calls one after the other, from a throttle and a time to a throttle and a time.
inductive Paces (throttle : Throttle) (now : Seconds) : List Pace → Throttle → Seconds → Prop where
  | none : Paces throttle now [] throttle now
  | more (calls : List Pace) (middle : Throttle) (time : Seconds) (call : Pace)
      (before : Paces throttle now calls middle time) (timely : Timely middle time call) :
      Paces throttle now (calls ++ [call]) (middle.pace call) call.finish

def accounted (calls : List Pace) : Nat := (calls.map Pace.len).sum

theorem accounted_append (calls : List Pace) (call : Pace) : accounted
    (calls ++ [call]) = accounted calls + call.len := by
  simp [accounted]

def cost (rate bytes : Nat) : Seconds := bytes / rate

theorem cost_add (rate a b : Nat) : cost rate (a + b) = cost rate a + cost rate b := by
  rw [cost, cost, cost, Nat.cast_add, add_div]

theorem cost_nonneg (rate bytes : Nat) : 0 ≤ cost rate bytes := by
  exact div_nonneg (Nat.cast_nonneg _) (Nat.cast_nonneg _)

theorem cost_bound (rate bytes : Nat) (time : Seconds) (positive : 0 < rate) (paid : cost rate bytes ≤ time) :
    (bytes : ℚ) ≤ rate * time := by
  have rated : (0 : ℚ) < rate := by exact_mod_cast positive
  rw [cost, div_le_iff₀ rated] at paid
  linarith

-- The window is paid for: it began so long ago that its bytes keep to the rate.
structure PaidUp (rate : Nat) (throttle : Throttle) (now : Seconds) : Prop where
  rated : throttle.rateBps = rate
  started : throttle.windowStart ≤ now
  paid : throttle.windowStart + cost rate throttle.bytesInWindow ≤ now

theorem new_paid_up (rate : Nat) (now : Seconds) : PaidUp rate (.new rate now) now := by
  refine ⟨rfl, le_refl _, ?_⟩
  simp [Throttle.new, cost]

section Call

variable (rate : Nat) (positive : 0 < rate) (throttle : Throttle) (previous : Seconds) (call : Pace)
variable (paidUp : PaidUp rate throttle previous) (timely : Timely throttle previous call)

-- What one call does: the window goes on, and it is at most two seconds old, or
-- it starts anew after the previous return.
inductive PaceEffect (rate : Nat) (throttle : Throttle) (previous : Seconds) (call : Pace) : Prop where
  | same (start : (throttle.pace call).windowStart = throttle.windowStart)
      (bytes : (throttle.pace call).bytesInWindow = throttle.bytesInWindow + call.len)
      (young : previous ≤ throttle.windowStart + 2) :
      PaceEffect rate throttle previous call
  | fresh (start : previous ≤ (throttle.pace call).windowStart)
      (bytes : (throttle.pace call).bytesInWindow = call.len) :
      PaceEffect rate throttle previous call

include positive paidUp timely

theorem pace_counted : PaceEffect rate throttle previous call := by
  have running : throttle.rateBps ≠ 0 := by
    rw [paidUp.rated]
    omega
  have arrival := timely.arrival
  have restart := timely.restart
  by_cases old : call.arrival - throttle.windowStart > idleReset
  · exact .fresh (by simpa [Throttle.pace, Throttle.window, running, old] using arrival.trans restart)
      (by simp [Throttle.pace, Throttle.window, running, old])
  · refine .same (by simp [Throttle.pace, Throttle.window, running, old])
      (by simp [Throttle.pace, Throttle.window, running, old]) ?_
    simp only [idleReset, not_lt] at old
    linarith

omit positive in
theorem pace_paid_up : PaidUp rate (throttle.pace call) call.finish := by
  have same : (throttle.pace call).rateBps = rate := by
    rw [← paidUp.rated]
    simp only [Throttle.pace, Throttle.window]
    split
    · rfl
    · split <;> rfl
  have started : (throttle.pace call).windowStart ≤ call.measured := by
    have begun := paidUp.started
    have arrival := timely.arrival
    have restart := timely.restart
    have measured := timely.measured
    simp only [Throttle.pace, Throttle.window]
    split
    · linarith
    · split
      · exact measured
      · simp only
        linarith
  have finish := timely.finish
  have owed : (throttle.pace call).expected = cost rate (throttle.pace call).bytesInWindow := by
    rw [Throttle.expected, same, cost]
  have slept : (throttle.pace call).windowStart + cost rate (throttle.pace call).bytesInWindow ≤
      call.measured + (throttle.pace call).sleep call.measured := by
    rw [Throttle.sleep, owed]
    split
    · linarith
    · linarith
  refine ⟨same, ?_, by linarith⟩
  have paid := cost_nonneg rate (throttle.pace call).bytesInWindow
  linarith

end Call

-- What has been accounted since a point in time, on top of the current window,
-- is paid for up to the start of the window and an allowance.
def Owed (rate bytes : Nat) (since allowance : Seconds) (throttle : Throttle) : Prop :=
  cost rate bytes ≤ throttle.windowStart - since + allowance + cost rate throttle.bytesInWindow

theorem pace_owed (rate bytes : Nat) (since allowance : Seconds) (throttle : Throttle) (previous : Seconds)
    (call : Pace) (positive : 0 < rate) (paidUp : PaidUp rate throttle previous)
    (timely : Timely throttle previous call) (owed : Owed rate bytes since allowance throttle) :
    Owed rate (bytes + call.len) since allowance (throttle.pace call) := by
  have paid := paidUp.paid
  unfold Owed at *
  rw [cost_add]
  cases pace_counted rate positive throttle previous call paidUp timely with
  | same start counted young =>
      rw [start, counted, cost_add]
      linarith
  | fresh start counted =>
      rw [counted]
      linarith

theorem first_owed (rate : Nat) (throttle : Throttle) (previous : Seconds) (call : Pace) (positive : 0 < rate)
    (paidUp : PaidUp rate throttle previous) (timely : Timely throttle previous call) :
    Owed rate call.len previous 2 (throttle.pace call) := by
  have spent := cost_nonneg rate throttle.bytesInWindow
  unfold Owed
  cases pace_counted rate positive throttle previous call paidUp timely with
  | same start counted young =>
      rw [start, counted, cost_add]
      linarith
  | fresh start counted =>
      rw [counted]
      linarith

section Run

variable (rate : Nat) (positive : 0 < rate) (throttle final : Throttle) (now later : Seconds)
    (calls : List Pace)
variable (paidUp : PaidUp rate throttle now) (run : Paces throttle now calls final later)
include paidUp run

theorem run_paid_up : PaidUp rate final later := by
  induction run with
  | none => exact paidUp
  | more calls middle time call before timely ih => exact pace_paid_up rate middle time call ih timely

include positive

theorem run_owed (bytes : Nat) (since allowance : Seconds) (owed : Owed rate bytes since allowance throttle) :
    Owed rate (bytes + accounted calls) since allowance final := by
  induction run with
  | none => exact owed
  | more calls middle time call before timely ih =>
      have paid := run_paid_up rate throttle middle now time calls paidUp before
      rw [accounted_append, ← Nat.add_assoc]
      exact pace_owed rate _ since allowance middle time call positive paid timely ih

theorem later_owed : (calls = [] ∧ final = throttle ∧ later = now) ∨ Owed rate
    (accounted calls) now 2 final := by
  induction run with
  | none => exact .inl ⟨rfl, rfl, rfl⟩
  | more calls middle time call before timely ih =>
      right
      have paid := run_paid_up rate throttle middle now time calls paidUp before
      rw [accounted_append]
      rcases ih with ⟨rfl, rfl, rfl⟩ | owed
      · simpa [accounted] using first_owed rate middle time call positive paid timely
      · exact pace_owed rate _ now 2 middle time call positive paid timely owed

theorem owed_bound (bytes : Nat) (since allowance : Seconds) (owed : Owed rate bytes since allowance final) :
    (bytes : ℚ) ≤ rate * (later - since + allowance) := by
  have paid := (run_paid_up rate throttle final now later calls paidUp run).paid
  refine cost_bound rate bytes _ positive ?_
  unfold Owed at owed
  linarith

end Run

-- first and second are the calls 1..i and i+1..j of any sequence: the bounds at
-- the return of call i and between the returns of the calls i and j.
theorem throttle_bounds_throughput (rate : Nat) (positive : 0 < rate) (created : Seconds)
    (first second : List Pace) (middle final : Throttle) (earlier later : Seconds)
    (paced : Paces (.new rate created) created first middle earlier)
    (pacedOn : Paces middle earlier second final later) :
    (accounted first : ℚ) ≤ rate * (earlier - created) ∧
      (accounted second : ℚ) ≤ rate * (later - earlier + 2) := by
  have fresh := new_paid_up rate created
  have paidUp := run_paid_up rate _ middle created earlier first fresh paced
  refine ⟨?_, ?_⟩
  · have nothing : Owed rate 0 created 0 (.new rate created) := by simp [Owed, Throttle.new, cost]
    have owed := run_owed rate positive _ middle created earlier first fresh paced 0 created 0 nothing
    have bound := owed_bound rate positive _ middle created earlier first fresh paced _ created 0 owed
    simpa using bound
  · rcases later_owed rate positive middle final earlier later second paidUp pacedOn with ⟨rfl, rfl, rfl⟩ |
      owed
    · have rated : (0 : ℚ) ≤ rate := Nat.cast_nonneg rate
      simp only [accounted, List.map_nil, List.sum_nil, Nat.cast_zero, sub_self, zero_add]
      linarith
    · exact owed_bound rate positive middle final earlier later second paidUp pacedOn _ earlier 2 owed

-- 100 bytes a second: a call that sleeps, and after a stall of ten seconds one
-- that starts a new window.
def firstPace : Pace := ⟨100, 0, 0, 0, 1⟩

def stalledPace : Pace := ⟨200, 11, 11, 11, 13⟩

theorem stalled_stream_is_paced : (accounted [firstPace] : ℚ) ≤ 100 *
    (1 - 0) ∧ (accounted [stalledPace] : ℚ) ≤ 100 * (13 - 1 + 2) := by
  have first : Paces (.new 100 0) 0 ([] ++ [firstPace]) ((Throttle.new 100 0).pace firstPace) 1 :=
    .more [] _ 0 firstPace .none ⟨by decide, by decide, by decide, by decide +kernel⟩
  have second : Paces ((Throttle.new 100 0).pace firstPace) 1 ([] ++ [stalledPace])
      (((Throttle.new 100 0).pace firstPace).pace stalledPace) 13 :=
    .more [] _ 1 stalledPace .none ⟨by decide, by decide, by decide, by decide +kernel⟩
  exact throttle_bounds_throughput 100 (by decide) 0 [firstPace] [stalledPace] _ _ 1 13 first second

end GoshTransfer
