import Metering.Proofs.Fallible
import Metering.System.Reader

/-!
# Making periodic readers

The interval, the longest delay and the number of attempts of a periodic reader are given, or they
come from the environment.  The reader is made whenever its numbers are accepted
(`newPeriodicReader_of_accepted`), and otherwise it is refused (`newPeriodicReader_of_error`).

An interval may be too large for a double, or longer than anything that can be waited for.  A reader
with such an interval is made like any other; only its intervals do not begin (`begins_iff`).
-/

namespace Metering

open Fallible

theorem Schedule.begins_iff {longest : Binary64} {interval : Number} :
    Schedule.begins longest interval = true ↔
      ∃ seconds, Delivery.seconds? interval = some seconds ∧ longest.lt seconds = false := by
  unfold Schedule.begins
  cases Delivery.seconds? interval <;> simp

/-- A minute can be waited for, and three centuries cannot. -/
example : Schedule.begins (.ofInt 9223372036) (.integer 60000) = true ∧
    Schedule.begins (.ofInt 9223372036) (.integer 10000000000000) = false := by decide +kernel

namespace ScheduleRequest

variable (q : ScheduleRequest) (env : Environment)

/-- The milliseconds between the exports of a reader. -/
def intervalIn : Number :=
  q.interval.getD (.integer (env.millis Environment.exportInterval Schedule.defaultInterval).1)

/-- The milliseconds that a reader waits at most between two attempts. -/
def timeoutIn : Number :=
  q.timeout.getD (.integer (env.millis Environment.exportTimeout Schedule.defaultTimeout).1)

/-- The greatest number of attempts of a reader. -/
def limit : Number := q.attempts.getD (.integer Schedule.defaultAttempts)

/-- What is wrong with the numbers of a reader. -/
def errorIn? : Option ScheduleError := Schedule.error? (q.intervalIn env) q.limit

/-- The schedule that a reader begins with. -/
def scheduleIn (longest : Binary64) (e : Ref .exporter) : Schedule where
  exporter := e
  interval := q.intervalIn env
  timeout := q.timeoutIn env
  attempts := q.limit
  ticking := Schedule.begins longest (q.intervalIn env)
  inProgress := false
  isShutDown := false

end ScheduleRequest

namespace SystemM

variable {σ : Type} {s : System σ} {q : ScheduleRequest}

theorem millisOr_apply (name : String) (default : Int) (n : Option Number) (s : System σ) :
    ∃ log, millisOr name default n s
      = (.ok (n.getD (.integer (s.environment.millis name default).1)), { s with log := log }) := by
  cases n with
  | some n => exact ⟨s.log, rfl⟩
  | none => exact ⟨_, rfl⟩

/-- A reader is made from its numbers, or it is refused for them. -/
theorem newPeriodicReader_apply (longest : Binary64) (e : Ref .exporter) (q : ScheduleRequest)
    (s : System σ) :
    ∃ log, newPeriodicReader longest e q s = match q.errorIn? s.environment with
      | some error => (.error (.schedule error), { s with log := log })
      | none => (.ok (s.readers.next, q.intervalIn s.environment), { s with
          log := log
          readers := s.readers.add
            ⟨none, true, .periodic (q.scheduleIn s.environment longest e)⟩ }) := by
  obtain ⟨log₁, hinterval⟩ :=
    millisOr_apply Environment.exportInterval Schedule.defaultInterval q.interval s
  obtain ⟨log₂, htimeout⟩ := millisOr_apply Environment.exportTimeout Schedule.defaultTimeout
    q.timeout { s with log := log₁ }
  refine ⟨log₂, ?_⟩
  unfold newPeriodicReader addReader
  simp only [bind_apply, hinterval, htimeout]
  unfold ScheduleRequest.errorIn? ScheduleRequest.intervalIn ScheduleRequest.limit
  cases Schedule.error? (q.interval.getD _) (q.attempts.getD _) with
  | some error => rfl
  | none => rfl

/-- **A reader is made** whenever its numbers are accepted, also if it has no intervals. -/
theorem newPeriodicReader_of_accepted (longest : Binary64) (e : Ref .exporter)
    (haccepted : q.errorIn? s.environment = none) :
    ∃ log, newPeriodicReader longest e q s
      = (.ok (s.readers.next, q.intervalIn s.environment), { s with
          log := log
          readers := s.readers.add
            ⟨none, true, .periodic (q.scheduleIn s.environment longest e)⟩ }) := by
  obtain ⟨log, happly⟩ := newPeriodicReader_apply longest e q s
  rw [haccepted] at happly
  exact ⟨log, happly⟩

/-- **A reader is refused** for its numbers. -/
theorem newPeriodicReader_of_error (longest : Binary64) (e : Ref .exporter) {error : ScheduleError}
    (herror : q.errorIn? s.environment = some error) :
    ∃ log, newPeriodicReader longest e q s = (.error (.schedule error), { s with log := log }) := by
  obtain ⟨log, happly⟩ := newPeriodicReader_apply longest e q s
  rw [herror] at happly
  exact ⟨log, happly⟩

end SystemM

end Metering
