import Mathlib.Order.Bounds.Basic
import Metering.Delivery.Attempts

/-!
# What the attempts of a delivery come to

The attempts of a delivery are told by the outcomes of the exporter: a batch is offered again as
long as the exporter asks for it, so that only the last outcome may be a different one.
`Report.told` is what there is to tell of such outcomes, and `attempt_told` says that this is what
an exporter of any kind is reported with.

The delays between the attempts are the powers of two, bounded by the cap (`place?_delay`); they
never get shorter.  `delivery_follows_outcomes` is the main statement: how many attempts there are,
what is waited for between them, and what is reported at the end.
-/

namespace Metering

/-- After this outcome the batch may be offered again. -/
def ExportOutcome.asksAgain : ExportOutcome → Bool
  | .retryable | .unknown => true
  | .success | .rejected | .raised _ => false

theorem Number.le_iff_of_place? {a b : Number} {p q : Int} (ha : a.place? = some (.at p))
    (hb : b.place? = some (.at q)) : a.le b = true ↔ p ≤ q := by
  unfold Number.le Number.lt Number.numericEq
  rw [ha, hb]
  simp only [Place.lt, Place.at.injEq, Bool.or_eq_true, decide_eq_true_eq]
  omega

namespace Delivery

/-- Offers a batch to an exporter of any kind.  Without a limit the attempts are followed for as
long as the patience lasts. -/
def offer {ε : Type} (send : List Metric → ε → ExportOutcome × ε) (patience : ε → Nat)
    (limit : Number) (cap : Binary64) (metrics : List Metric) (e : ε) : Report × ε :=
  let allowed := (allowed? limit).map (max 1)
  attempt (send metrics) allowed cap metrics.length (allowed.getD (patience e)) 0 e

/-- So many attempts are followed at most. -/
def followed (limit : Number) (patience : Nat) : Nat := ((allowed? limit).map (max 1)).getD patience

theorem exists_followed (limit : Number) (watch : Nat) :
    ∃ fuel, followed limit (watch + 1) = fuel + 1 := by
  unfold followed
  cases allowed? limit with
  | none => exact ⟨watch, rfl⟩
  | some bound =>
    refine ⟨max 1 bound - 1, ?_⟩
    rw [Option.map_some, Option.getD_some]
    omega

/-- Delivering is offering to one of the exporters of this library. -/
theorem deliver_eq_offer : deliver = offer Exporter.send Exporter.patience := rfl

/-! ### Outcomes -/

variable {ε : Type}

/-- The outcomes of so many attempts, and the exporter afterwards. -/
def answers (send : ε → ExportOutcome × ε) : Nat → ε → List ExportOutcome × ε
  | 0, e => ([], e)
  | n + 1, e =>
    let (outcome, e) := send e
    let (outcomes, e) := answers send n e
    (outcome :: outcomes, e)

theorem answers_succ (send : ε → ExportOutcome × ε) (n : Nat) (e : ε) :
    answers send (n + 1) e
      = ((send e).1 :: (answers send n (send e).2).1, (answers send n (send e).2).2) := rfl

/-- Why a batch is not delivered whose last attempt had the outcome. -/
def failureLine? (size attempts : Nat) : ExportOutcome → Option LogEntry
  | .success => none
  | .raised f => some (.failed raisedMessage f)
  | .rejected => some (.warning (refusalMessage size))
  | .retryable | .unknown => some (.warning (dropMessage size attempts))

/-- Says that a batch is offered again after the attempt of the given number. -/
def retryEntry (cap : Binary64) (size attempt : Nat) : LogEntry :=
  .debug (retryMessage size (delay cap attempt))

namespace Report

/-- What there is to tell of attempts of which all but the last are followed by a delay.  So many
were made before. -/
def told (cap : Binary64) (size made retries : Nat) (last : ExportOutcome) : Report where
  ended := true
  delivered := decide (last = .success)
  attempts := made + retries + 1
  waits := (List.range' made retries).map (delay cap)
  log := (List.range' made retries).map (retryEntry cap size)
    ++ (failureLine? size (made + retries + 1) last).toList

/-- What there is to tell of attempts that have not come to an end. -/
def following (cap : Binary64) (size made retries : Nat) : Report where
  ended := false
  delivered := false
  attempts := made + retries
  waits := (List.range' made retries).map (delay cap)
  log := (List.range' made retries).map (retryEntry cap size)

theorem afterDelay_told (cap : Binary64) (size made retries : Nat) (last : ExportOutcome) :
    (told cap size (made + 1) retries last).afterDelay (retryMessage size (delay cap made))
      (delay cap made) = told cap size made (retries + 1) last := by
  have hattempts : made + 1 + retries + 1 = made + (retries + 1) + 1 := by omega
  unfold told afterDelay
  rw [hattempts]
  rfl

theorem afterDelay_following (cap : Binary64) (size made retries : Nat) :
    (following cap size (made + 1) retries).afterDelay (retryMessage size (delay cap made))
      (delay cap made) = following cap size made (retries + 1) := by
  have hattempts : made + 1 + retries = made + (retries + 1) := by omega
  unfold following afterDelay
  rw [hattempts]
  rfl

end Report

/-- How attempts go on: they end with an outcome that is final or with the last attempt that is
allowed, or nothing limits them and they are not followed any longer. -/
inductive Ending (allowed : Option Nat) (fuel : Nat) (cap : Binary64) (size made : Nat)
    (again : List ExportOutcome) (last : ExportOutcome) : Report → Prop
  | final (h : last.asksAgain = false) :
      Ending allowed fuel cap size made again last (.told cap size made again.length last)
  | dropped (h : last.asksAgain = true) (hfuel : again.length = fuel) (hlimit : allowed.isSome) :
      Ending allowed fuel cap size made again last (.told cap size made again.length last)
  | endless (h : last.asksAgain = true) (hfuel : again.length = fuel) (hlimit : allowed = none) :
      Ending allowed fuel cap size made again last (.following cap size made (again.length + 1))

/-! ### One attempt after the other -/

section

variable {send : ε → ExportOutcome × ε} {e : ε}

/-- A final outcome ends the attempts. -/
theorem attempt_of_final (h : (send e).1.asksAgain = false) (allowed : Option Nat)
    (cap : Binary64) (size fuel made : Nat) :
    attempt send allowed cap size (fuel + 1) made e
      = (.told cap size made 0 (send e).1, (send e).2) := by
  unfold attempt
  rcases hsend : send e with ⟨outcome, e'⟩
  rw [hsend] at h
  cases outcome with
  | success => rfl
  | raised f => rfl
  | rejected => rfl
  | retryable => cases h
  | unknown => cases h

/-- An outcome that asks for one more attempt is followed by one, unless it is one too many. -/
theorem attempt_of_again (h : (send e).1.asksAgain = true) (allowed : Option Nat)
    (cap : Binary64) (size fuel made : Nat) :
    attempt send allowed cap size (fuel + 1) made e
      = if allowed.any (· ≤ made + 1) then (.told cap size made 0 (send e).1, (send e).2)
        else
          let (rest, e') := attempt send allowed cap size fuel (made + 1) (send e).2
          (rest.afterDelay (retryMessage size (delay cap made)) (delay cap made), e') := by
  rw [attempt]
  rcases hsend : send e with ⟨outcome, e'⟩
  rw [hsend] at h
  cases outcome with
  | success => cases h
  | raised f => cases h
  | rejected => cases h
  | retryable => rfl
  | unknown => rfl

end

/-- **The attempts** that are reported are those that were made: all outcomes but the last ask for
one more.  The number of attempts to be followed is what is left of the limit, if there is one. -/
theorem attempt_told (send : ε → ExportOutcome × ε) (allowed : Option Nat) (cap : Binary64)
    (size fuel made : Nat) (hlimit : ∀ limit ∈ allowed, made + (fuel + 1) = limit) (e : ε) :
    ∃ again last report e', again.length ≤ fuel ∧ (∀ o ∈ again, o.asksAgain = true) ∧
      answers send (again.length + 1) e = (again ++ [last], e') ∧
      Ending allowed fuel cap size made again last report ∧
      attempt send allowed cap size (fuel + 1) made e = (report, e') := by
  -- the attempts made grow as the fuel shrinks, so `hlimit` keeps their sum at the limit
  induction fuel generalizing made e with
  | zero =>
    cases hlast : (send e).1.asksAgain with
    | false =>
      exact ⟨[], (send e).1, _, (send e).2, le_rfl, by simp, rfl, .final hlast,
        attempt_of_final hlast allowed cap size 0 made⟩
    | true =>
      have happly := attempt_of_again hlast allowed cap size 0 made
      cases allowed with
      | none => exact ⟨[], (send e).1, _, _, le_rfl, by simp, rfl, .endless hlast rfl rfl, happly⟩
      | some limit =>
        -- the fuel is spent just when the limit is reached, so the metrics are dropped here
        have hdone : limit ≤ made + 1 := (hlimit limit rfl).ge
        rw [if_pos (by simpa using hdone)] at happly
        exact ⟨[], (send e).1, _, _, le_rfl, by simp, rfl, .dropped hlast rfl rfl, happly⟩
  | succ fuel ih =>
    cases hfirst : (send e).1.asksAgain with
    | false =>
      exact ⟨[], (send e).1, _, (send e).2, Nat.zero_le _, by simp, rfl, .final hfirst,
        attempt_of_final hfirst allowed cap size (fuel + 1) made⟩
    | true =>
      -- fuel is left, so the limit is not reached and one more attempt follows
      have hmore : allowed.any (· ≤ made + 1) = false := by
        cases allowed with
        | none => rfl
        | some limit =>
          have := hlimit limit rfl
          simp only [Option.any_some, decide_eq_false_iff_not]
          omega
      obtain ⟨again, last, report, e', hle, hagain, hanswers, hending, happly⟩ :=
        ih (made + 1) (fun limit hl => by have := hlimit limit hl; omega) (send e).2
      refine ⟨(send e).1 :: again, last,
        report.afterDelay (retryMessage size (delay cap made)) (delay cap made), e',
        ?_, ?_, ?_, ?_, ?_⟩
      · simpa using hle
      · simpa using ⟨hfirst, hagain⟩
      · rw [List.length_cons, answers_succ, hanswers]
        rfl
      · cases hending with
        | final h =>
          rw [Report.afterDelay_told]
          exact .final h
        | dropped h hfuel hsome =>
          rw [Report.afterDelay_told]
          exact .dropped h (by simpa using hfuel) hsome
        | endless h hfuel hnone =>
          rw [Report.afterDelay_following]
          exact .endless h (by simpa using hfuel) hnone
      · rw [attempt_of_again hfirst, hmore, if_neg Bool.false_ne_true, happly]

/-- **Offering** is reported with the attempts that were made. -/
theorem offer_told (send : List Metric → ε → ExportOutcome × ε) (patience : ε → Nat)
    {limit : Number} (e : ε) {fuel : Nat} (hfuel : followed limit (patience e) = fuel + 1)
    (cap : Binary64) (metrics : List Metric) :
    ∃ again last report e', again.length ≤ fuel ∧ (∀ o ∈ again, o.asksAgain = true) ∧
      answers (send metrics) (again.length + 1) e = (again ++ [last], e') ∧
      Ending ((allowed? limit).map (max 1)) fuel cap metrics.length 0 again last report ∧
      offer send patience limit cap metrics e = (report, e') := by
  have hlimit : ∀ allowed ∈ (allowed? limit).map (max 1), 0 + (fuel + 1) = allowed := by
    intro allowed hallowed
    unfold followed at hfuel
    rw [Option.mem_def.mp hallowed, Option.getD_some] at hfuel
    omega
  obtain ⟨again, last, report, e', hle, hagain, hanswers, hending, happly⟩ :=
    attempt_told (send metrics) _ cap metrics.length fuel 0 hlimit e
  refine ⟨again, last, report, e', hle, hagain, hanswers, hending, ?_⟩
  rw [← hfuel] at happly
  exact happly

/-! ### Limits -/

/-- An attempt reaches a limit as soon as its number is what is allowed. -/
theorem le_of_allowed? {limit : Number} {bound : Nat} (h : allowed? limit = some bound) (k : Nat) :
    limit.le (.integer k) = true ↔ bound ≤ k := by
  have hunit := Binary64.unitsPerOne_pos
  have hk : (Number.integer k).place? = some (.at ((k : Int) * Binary64.unitsPerOne)) := rfl
  unfold allowed? at h
  split at h
  · next n =>
    obtain rfl := Option.some.inj h
    have hn : (Number.integer n).place? = some (.at (n * Binary64.unitsPerOne)) := rfl
    rw [Number.le_iff_of_place? hn hk]
    have hscaled : n * (Binary64.unitsPerOne : Int) ≤ k * Binary64.unitsPerOne ↔ n ≤ k :=
      Int.mul_le_mul_iff_of_pos_right (by omega)
    rw [hscaled]
    omega
  · next units =>
    obtain rfl := Option.some.inj h
    have hn : (Number.double (.finite false units)).place? = some (.at units) := rfl
    rw [Number.le_iff_of_place? hn hk]
    -- a quotient that is rounded up
    have hquotient : (units + Binary64.unitsPerOne - 1) / Binary64.unitsPerOne ≤ k ↔
        units ≤ k * Binary64.unitsPerOne := by
      rw [Nat.div_le_iff_le_mul_add_pred hunit, Nat.mul_comm]
      omega
    rw [hquotient]
    exact_mod_cast Iff.rfl
  · next units =>
    obtain rfl := Option.some.inj h
    have hn : (Number.double (.finite true units)).place? = some (.at (-units)) := rfl
    rw [Number.le_iff_of_place? hn hk]
    have hpositive : (0 : Int) ≤ k * Binary64.unitsPerOne := by
      exact_mod_cast Nat.zero_le (k * Binary64.unitsPerOne)
    omega
  · obtain rfl := Option.some.inj h
    exact iff_of_true rfl (Nat.zero_le k)
  · cases h

/-- No attempt reaches a limit under which everything is allowed. -/
theorem not_le_of_unlimited {limit : Number} (h : allowed? limit = none) (k : Nat) :
    limit.le (.integer k) = false := by
  unfold allowed? at h
  split at h
  · cases h
  · cases h
  · cases h
  · cases h
  · next x hpositive hnegative hinfinite =>
    cases x with
    | nan => rfl
    | infinity negative =>
      cases negative with
      | true => exact absurd rfl hinfinite
      | false => rfl
    | finite negative units =>
      cases negative with
      | true => exact absurd rfl (hnegative units)
      | false => exact absurd rfl (hpositive units)

/-- **What is allowed** is the least number of attempts that reaches the limit. -/
theorem allowed?_eq_some_iff {limit : Number} {bound : Nat} :
    allowed? limit = some bound ↔ ∀ k : Nat, limit.le (.integer k) = true ↔ bound ≤ k := by
  refine ⟨le_of_allowed?, fun h => ?_⟩
  cases hb : allowed? limit with
  | none =>
    have hreached := (h bound).mpr le_rfl
    rw [not_le_of_unlimited hb] at hreached
    cases hreached
  | some b =>
    have hle : b ≤ bound := (le_of_allowed? hb bound).mp ((h bound).mpr le_rfl)
    have hge : bound ≤ b := (h b).mp ((le_of_allowed? hb b).mpr le_rfl)
    rw [le_antisymm hle hge]

/-! ### Delays -/

section

variable {cap : Binary64} {m : Int}

/-- **A delay** is worth the power of two, or the cap if that is less. -/
theorem place?_delay (hcap : cap.place? = some (.at m)) (k : Nat) :
    (delay cap k).place? = some (.at (min (Nat.pow 2 k * Binary64.unitsPerOne) m)) := by
  have hpower : (Number.integer (Nat.pow 2 k)).place?
      = some (.at (Nat.pow 2 k * Binary64.unitsPerOne)) := rfl
  have hdouble : (Number.double cap).place? = some (.at m) := hcap
  have hlt : (Number.integer (Nat.pow 2 k)).lt (.double cap)
      = decide ((Nat.pow 2 k * Binary64.unitsPerOne : Int) < m) := by
    unfold Number.lt
    rw [hpower, hdouble]
    rfl
  unfold delay
  dsimp only
  rw [hlt]
  split
  · next hless => rw [hpower, min_eq_left (of_decide_eq_true hless).le]
  · next hmore =>
    have hge : m ≤ Nat.pow 2 k * Binary64.unitsPerOne := not_lt.mp (mt decide_eq_true hmore)
    rw [hdouble, min_eq_right hge]

/-- Delays never get shorter. -/
theorem delay_le_delay (hcap : cap.place? = some (.at m)) {j k : Nat} (h : j ≤ k) :
    (delay cap j).le (delay cap k) = true := by
  rw [Number.le_iff_of_place? (place?_delay hcap j) (place?_delay hcap k)]
  have hpower : Nat.pow 2 j ≤ Nat.pow 2 k := Nat.pow_le_pow_right (by decide) h
  have hscaled : (Nat.pow 2 j * Binary64.unitsPerOne : Int) ≤ Nat.pow 2 k * Binary64.unitsPerOne :=
    by exact_mod_cast Nat.mul_le_mul_right _ hpower
  omega

/-- No delay is longer than the cap. -/
theorem delay_le_cap (hcap : cap.place? = some (.at m)) (k : Nat) :
    (delay cap k).le (.double cap) = true := by
  have hdouble : (Number.double cap).place? = some (.at m) := hcap
  rw [Number.le_iff_of_place? (place?_delay hcap k) hdouble]
  exact min_le_right _ m

end

/-! ### Exporters that answer with given outcomes -/

/-- An exporter that answers with a sequence of outcomes, and keeps whatever it is offered. -/
def answering (outcomes : Nat → ExportOutcome) (batch : List Metric)
    (offered : List (List Metric)) : ExportOutcome × List (List Metric) :=
  (outcomes offered.length, offered ++ [batch])

theorem answers_answering (outcomes : Nat → ExportOutcome) (batch : List Metric) (n : Nat)
    (offered : List (List Metric)) :
    answers (answering outcomes batch) n offered
      = ((List.range' offered.length n).map outcomes, offered ++ List.replicate n batch) := by
  induction n generalizing offered with
  | zero => simp [answers]
  | succ n ih =>
    rw [answers_succ]
    have hrest : answers (answering outcomes batch) n (answering outcomes batch offered).2
        = ((List.range' (offered.length + 1) n).map outcomes,
          offered ++ [batch] ++ List.replicate n batch) := by
      have hih := ih (offered ++ [batch])
      rwa [List.length_append] at hih
    rw [hrest, List.append_assoc]
    rfl

/-- What the attempts come to if that many are allowed and the exporter answers with the outcomes.
The cap is worth `m`, in the units in which doubles are counted. -/
structure Retried (outcomes : Nat → ExportOutcome) (bound : Nat) (cap : Binary64) (m : Int)
    (size n : Nat) (r : Report) : Prop where
  ended : r.ended = true
  attempts : r.attempts = n
  /-- The last attempt is the last that is allowed, or the first with a final outcome before. -/
  least : IsLeast ({bound} ∪ {k | ∃ j, k = j + 1 ∧ (outcomes j).asksAgain = false}) n
  /-- The last outcome decides. -/
  delivered : r.delivered = true ↔ outcomes (n - 1) = .success
  /-- There is a delay after each attempt but the last. -/
  waits : r.waits = (List.range (n - 1)).map (delay cap)
  /-- The delays are worth the powers of two, or the cap if that is less. -/
  worth : r.waits.map Number.place? = (List.range (n - 1)).map fun k =>
    some (.at (min (Nat.pow 2 k * Binary64.unitsPerOne) m))
  ordered : r.waits.Pairwise fun a b => a.le b = true
  capped : ∀ d ∈ r.waits, d.le (.double cap) = true
  /-- Every delay is announced, and at the end there is one entry that tells of a failure. -/
  log : r.log = (List.range (n - 1)).map (retryEntry cap size)
    ++ (failureLine? size n (outcomes (n - 1))).toList
  failure : r.log.filter (·.level ≠ .debug) = (failureLine? size n (outcomes (n - 1))).toList
  failed : r.delivered = false ↔ ∃ entry, r.log.filter (·.level ≠ .debug) = [entry]

theorem failureLine?_eq_none_iff (size attempts : Nat) {last : ExportOutcome} :
    failureLine? size attempts last = none ↔ last = .success := by
  cases last <;> simp [failureLine?]

theorem filter_retryEntry (cap : Binary64) (size : Nat) (attempts : List Nat) :
    (attempts.map (retryEntry cap size)).filter (·.level ≠ .debug) = [] := by
  rw [List.filter_eq_nil_iff]
  intro entry hentry
  obtain ⟨k, -, rfl⟩ := List.mem_map.mp hentry
  simp [retryEntry, LogEntry.debug]

theorem filter_failureLine? (size attempts : Nat) (last : ExportOutcome) :
    (failureLine? size attempts last).toList.filter (·.level ≠ .debug)
      = (failureLine? size attempts last).toList := by
  cases last <;> rfl

/-- What is told of attempts comes from their outcomes. -/
theorem retried_told {outcomes : Nat → ExportOutcome} {bound retries : Nat} {cap : Binary64}
    {m : Int} (hcap : cap.place? = some (.at m)) (hbound : retries + 1 ≤ bound)
    (hagain : ∀ j < retries, (outcomes j).asksAgain = true)
    (hlast : (outcomes retries).asksAgain = false ∨ retries + 1 = bound) (size : Nat) :
    Retried outcomes bound cap m size (retries + 1)
      (.told cap size 0 retries (outcomes retries)) := by
  have hwaits : (Report.told cap size 0 retries (outcomes retries)).waits
      = (List.range retries).map (delay cap) := by
    rw [List.range_eq_range']
    rfl
  have hlog : (Report.told cap size 0 retries (outcomes retries)).log
      = (List.range retries).map (retryEntry cap size)
        ++ (failureLine? size (retries + 1) (outcomes retries)).toList := by
    rw [List.range_eq_range']
    unfold Report.told
    rw [Nat.zero_add]
  have hfailure : (Report.told cap size 0 retries (outcomes retries)).log.filter
      (·.level ≠ .debug) = (failureLine? size (retries + 1) (outcomes retries)).toList := by
    rw [hlog, List.filter_append, filter_retryEntry, filter_failureLine?, List.nil_append]
  constructor
  case ended => rfl
  case attempts => exact congrArg (· + 1) (Nat.zero_add retries)
  case least =>
    constructor
    · rcases hlast with hfinal | hall
      · exact Or.inr ⟨retries, rfl, hfinal⟩
      · exact Or.inl hall
    · rintro k (hk | ⟨j, rfl, hj⟩)
      · rw [hk]
        exact hbound
      · -- an earlier outcome is not final
        by_contra hless
        rw [hagain j (by omega)] at hj
        cases hj
  case delivered => exact decide_eq_true_iff
  case waits => exact hwaits
  case worth =>
    rw [hwaits, List.map_map]
    exact List.map_congr_left fun k _ => place?_delay hcap k
  case ordered =>
    rw [hwaits, List.pairwise_map]
    exact List.pairwise_lt_range.imp fun hjk => delay_le_delay hcap hjk.le
  case capped =>
    intro d hd
    rw [hwaits] at hd
    obtain ⟨k, -, rfl⟩ := List.mem_map.mp hd
    exact delay_le_cap hcap k
  case log => exact hlog
  case failure => exact hfailure
  case failed =>
    rw [hfailure]
    show decide (outcomes retries = .success) = false ↔ _
    rw [decide_eq_false_iff_not, ← failureLine?_eq_none_iff size (retries + 1)]
    cases failureLine? size (retries + 1) (outcomes retries) <;> simp

end Delivery

/-- **Retrying**: an exporter is offered the same batch until it answers with a final outcome or as
many attempts as allowed have been made, whatever its outcomes are.  The timeout is worth `m` in
seconds, in the units in which doubles are counted. -/
theorem delivery_follows_outcomes (outcomes : Nat → ExportOutcome) {limit : Number} {bound : Nat}
    (hlimit : Delivery.allowed? limit = some bound) (hbound : 1 ≤ bound) {timeout : Number} {m : Int}
    (hcap : (Delivery.seconds? timeout).bind Binary64.place? = some (.at m))
    (patience : List (List Metric) → Nat) (metrics : List Metric) :
    ∃ cap n report, Delivery.seconds? timeout = some cap ∧
      Delivery.offer (Delivery.answering outcomes) patience limit cap metrics []
        = (report, List.replicate n metrics) ∧
      Delivery.Retried outcomes bound cap m metrics.length n report := by
  obtain ⟨cap, hseconds, hplace⟩ := Option.bind_eq_some_iff.mp hcap
  obtain ⟨fuel, rfl⟩ : ∃ fuel, bound = fuel + 1 := ⟨bound - 1, by omega⟩
  have hallowed : (Delivery.allowed? limit).map (max 1) = some (fuel + 1) := by
    rw [hlimit, Option.map_some, max_eq_right hbound]
  have hfollowed : Delivery.followed limit (patience []) = fuel + 1 := by
    unfold Delivery.followed
    rw [hallowed, Option.getD_some]
  obtain ⟨again, last, report, offered, hle, hagain, hanswers, hending, hoffer⟩ :=
    Delivery.offer_told (Delivery.answering outcomes) patience [] hfollowed cap metrics
  rw [Delivery.answers_answering] at hanswers
  obtain ⟨houtcomes, rfl⟩ := Prod.mk.inj hanswers
  have hrange : (List.range again.length).map outcomes ++ [outcomes again.length]
      = again ++ [last] := by
    rw [← houtcomes, List.length_nil, ← List.range_eq_range', List.range_succ, List.map_append]
    rfl
  obtain ⟨hmap, hlast⟩ := List.append_inj' hrange rfl
  obtain rfl : outcomes again.length = last := List.singleton_inj.mp hlast
  have hasked : ∀ j < again.length, (outcomes j).asksAgain = true := fun j hj =>
    hagain _ (hmap ▸ List.mem_map_of_mem (List.mem_range.mpr hj))
  rw [hallowed] at hending
  refine ⟨cap, again.length + 1, report, hseconds, hoffer, ?_⟩
  cases hending with
  | final hfinal =>
    exact Delivery.retried_told hplace (by omega) hasked (Or.inl hfinal) _
  | dropped _ hall _ =>
    exact Delivery.retried_told hplace (by omega) hasked (Or.inr (by omega)) _
  | endless _ _ hunlimited => cases hunlimited

/-- Five requests, as a collection reports them. -/
def Delivery.fiveRequests : List Metric :=
  [{ resource := .empty
     library := ⟨some "server", none⟩
     name := "requests"
     description := some ""
     unit := some "1"
     type := .sum true .long
     temporality := .delta
     points := [⟨5, 10, LabelSet.empty, .number (.integer 5)⟩] }]

/-- An exporter that asks for another attempt three times. -/
def Delivery.takenAtLast (k : Nat) : ExportOutcome := if k < 3 then .retryable else .success

/-- With delays of at most three seconds the third delay is at the cap. -/
theorem delivery_follows_outcomes_of_third_retry :
    Delivery.allowed? (.integer 5) = some 5 ∧ 1 ≤ 5 ∧
      ∃ cap report, Delivery.seconds? (.integer 3000) = some cap ∧
        Delivery.offer (Delivery.answering Delivery.takenAtLast) (fun _ => 0) (.integer 5) cap
          Delivery.fiveRequests [] = (report, List.replicate 4 Delivery.fiveRequests) ∧
        Delivery.Retried Delivery.takenAtLast 5 cap (3 * Binary64.unitsPerOne) 1 4 report ∧
        report.waits = [.integer 1, .integer 2, .double (Binary64.ofInt 3)] := by
  have hlimit : Delivery.allowed? (.integer 5) = some 5 := rfl
  have hcap : (Delivery.seconds? (.integer 3000)).bind Binary64.place?
      = some (.at (3 * Binary64.unitsPerOne)) := by decide +kernel
  obtain ⟨cap, n, report, hseconds, hoffer, hretried⟩ :=
    delivery_follows_outcomes Delivery.takenAtLast hlimit (by decide) hcap (fun _ => 0)
      Delivery.fiveRequests
  have hthree : Delivery.seconds? (.integer 3000) = some (Binary64.ofInt 3) := by decide +kernel
  obtain rfl : Binary64.ofInt 3 = cap := Option.some.inj (hthree.symm.trans hseconds)
  have hreport : (Delivery.offer (Delivery.answering Delivery.takenAtLast) (fun _ => 0)
      (.integer 5) (Binary64.ofInt 3) Delivery.fiveRequests []).1.attempts = 4 := by decide +kernel
  have hwaits : (Delivery.offer (Delivery.answering Delivery.takenAtLast) (fun _ => 0)
      (.integer 5) (Binary64.ofInt 3) Delivery.fiveRequests []).1.waits
        = [.integer 1, .integer 2, .double (Binary64.ofInt 3)] := by decide +kernel
  rw [hoffer] at hreport hwaits
  obtain rfl : n = 4 := hretried.attempts.symm.trans hreport
  exact ⟨hlimit, by decide, _, report, hseconds, hoffer, hretried, hwaits⟩

end Metering
