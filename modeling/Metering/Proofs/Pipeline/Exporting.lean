import Metering.Proofs.Pipeline.Using

/-!
# Collecting and exporting in a pipeline

Collecting the provider of a running pipeline collects all its instruments, each once: what they
report is appended to what came out, and afterwards no live aggregator holds anything
(`Running.collectProvider`).  The exporter keeps it all (`Running.collectAndExport`), so that an
interval, a flush and the last export of a shutdown each only make what is kept longer.
-/

namespace Metering

open Fallible SystemM

variable {σ : Type}

/-! ### Collecting -/

namespace Ensemble

variable {s : System σ} {bound : List (Ref .handle × LabelSet)}
  {role : Ref .instrument → AggregatorId → Role}
  {recorded : List (Ref .instrument × LabelSet × Scalar)} {out : List Metric}
  {settled settled' : Ref .instrument → Prop}

/-- Only instruments that are there can be settled. -/
theorem settle (h : Ensemble s bound role recorded out settled)
    (hs : ∀ {r a}, s.accumulation? r = some a → settled' r → settled r) :
    Ensemble s bound role recorded out settled' :=
  { h with
    accounts := fun ha => by
      obtain ⟨t, g, hacc, hnotes, hout, hlive⟩ := h.accounts ha
      exact ⟨t, g, hacc, hnotes, hout, fun hr => hlive (hs ha hr)⟩ }

/-- **Collecting** one instrument settles it. -/
theorem collectInstrument (h : Ensemble s bound role recorded out settled) {r : Ref .instrument}
    {a : Accumulation} (ha : s.accumulation? r = some a) (perform : σ → SystemM σ Unit)
    (stop : Int) :
    ∃ metrics s' role', SystemM.collectInstrument perform r (some stop) s = (.ok metrics, s') ∧
      s.SameParts s' ∧
      Ensemble s' bound role' recorded (out ++ metrics) fun r' => settled r' ∨ r' = r := by
  obtain ⟨t, g, rfl, hacc, hnotes, hout, -⟩ := h.account ha
  have htime : some stop = none → s.Timed r := nofun
  obtain ⟨metrics, a, events, hcollect, horigin, hrun, htracks, hswept⟩ :=
    hacc.tracks.collect addsUp_isSum hacc.sound hacc.idle htime perform
  have hidle : (t.run events).collector = .idle := by
    rw [hrun]
    exact hacc.idle
  have hrecorded : (t.run events).recorded = t.recorded ++ [] := by rw [hrun, List.append_nil]
  have hreports : (t.run events).reports = t.reports ++ [metrics] := by rw [hrun]
  obtain ⟨role₁, hacc', hadv⟩ := hacc.run htracks hidle
  have hworked : WorkedOn s (s.withAccumulation r a) r t (t.run events) := by
    refine ⟨ha, ?_, ?_, hadv.stream⟩
    · rw [hrun]
    · rw [hrun]
      rfl
  have hwork : Ensemble (s.withAccumulation r a) bound _ _ _ fun r' => settled r' ∨ r' = r :=
    h.work hacc hnotes hout hworked hacc' hadv hrecorded hreports (by simpa using horigin)
      (h.handled.congr rfl) h.owned
      (fun r' _ => .of_eq (System.heldOn_congr fun b _ => System.reference?_congr rfl b.1))
      (fun _ => hswept.live_eq_nil hidle) fun r' hr hset => hset.resolve_right hr
  rw [List.map_nil, List.append_nil, List.flatten_singleton] at hwork
  refine ⟨metrics, _, _, hcollect, ?_, hwork⟩
  have hstream := hadv.stream
  rw [hrun] at hstream
  exact System.SameParts.withAccumulation ha hstream

/-- **Collecting** instruments settles them all. -/
theorem collectInstruments (h : Ensemble s bound role recorded out settled)
    (perform : σ → SystemM σ Unit) (stop : Int) (rs : List (Ref .instrument))
    (hrs : ∀ r ∈ rs, ∃ d library, s.Makes r d library) :
    ∃ metrics s' role', SystemM.collectInstruments perform (some stop) rs s = (.ok metrics, s') ∧
      s.SameParts s' ∧
      Ensemble s' bound role' recorded (out ++ metrics) fun r => settled r ∨ r ∈ rs := by
  induction rs generalizing s role out settled with
  | nil =>
    refine ⟨[], s, role, rfl, .refl s, ?_⟩
    rw [List.append_nil]
    exact h.settle fun _ hr => hr.resolve_right (by simp)
  | cons r rs ih =>
    obtain ⟨d, library, hmakes⟩ := hrs r List.mem_cons_self
    obtain ⟨a, ha, -⟩ := hmakes.accumulation?
    obtain ⟨metrics, s₁, role₁, hfirst, hsame, h₁⟩ := h.collectInstrument ha perform stop
    obtain ⟨rest, s₂, role₂, hothers, hsame', h₂⟩ := ih h₁ fun r' hr' => by
      obtain ⟨d, library, hmakes⟩ := hrs r' (List.mem_cons_of_mem _ hr')
      exact ⟨d, library, hsame.makes hmakes⟩
    refine ⟨metrics ++ rest, s₂, role₂, ?_, hsame.trans hsame', ?_⟩
    · unfold SystemM.collectInstruments
      simp only [bind_apply, hfirst, hothers, pure_apply]
    · rw [← List.append_assoc]
      refine h₂.settle fun _ hr => ?_
      rw [List.mem_cons, ← or_assoc] at hr
      exact hr

end Ensemble

section

variable {P : Pipeline} {schedule : Schedule} {plan : Ref .meter → String → Descriptor}
  {s : System σ} {bound : List (Ref .handle × LabelSet)}
  {recorded : List (Ref .instrument × LabelSet × Scalar)} {finished : List Metric}

/-- **Collecting** meters settles all their instruments. -/
theorem Ensemble.collectMeters {role : Ref .instrument → AggregatorId → Role} {out : List Metric}
    {settled : Ref .instrument → Prop} (h : Ensemble s bound role recorded out settled)
    (hp : Registered P plan s) (perform : σ → SystemM σ Unit) (stop : Int)
    (ms : List (Ref .meter)) (hms : ∀ m ∈ ms, ∃ y, s.meters.get? m = some y) :
    ∃ metrics s' role', SystemM.collectMeters perform (some stop) ms s = (.ok metrics, s') ∧
      s.SameParts s' ∧
      Ensemble s' bound role' recorded (out ++ metrics) fun r => settled r ∨
        ∃ m ∈ ms, ∃ y name, s.meters.get? m = some y ∧ y.instruments.get? name = some r := by
  induction ms generalizing s role out settled with
  | nil =>
    refine ⟨[], s, role, rfl, .refl s, ?_⟩
    rw [List.append_nil]
    exact h.settle fun _ hr => hr.resolve_right (by simp)
  | cons m ms ih =>
    obtain ⟨y, hy⟩ := hms m List.mem_cons_self
    obtain ⟨metrics, s₁, role₁, hfirst, hsame, h₁⟩ :=
      h.collectInstruments perform stop y.instruments.values fun r hr => by
        obtain ⟨name, hname⟩ := OrderedMap.mem_values_iff.mp hr
        exact ⟨_, _, (hp.makes hy hname).2⟩
    obtain ⟨rest, s₂, role₂, hothers, hsame', h₂⟩ :=
      ih h₁ (hp.sameParts hsame) fun m' hm' => by
        rw [hsame.meters]
        exact hms m' (List.mem_cons_of_mem _ hm')
    refine ⟨metrics ++ rest, s₂, role₂, ?_, hsame.trans hsame', ?_⟩
    · unfold SystemM.collectMeters collectMeter meter
      simp only [bind_apply, get_apply, demand_apply, hy, hfirst, hothers, pure_apply]
    · rw [← List.append_assoc]
      refine h₂.settle fun _ hr => ?_
      -- settled before, or of the first meter, or of one of the others
      rcases hr with hr | ⟨m', hm', y', name, hy', hname⟩
      · exact Or.inl (Or.inl hr)
      rcases List.mem_cons.mp hm' with rfl | hm'
      · obtain rfl := Option.some.inj (hy.symm.trans hy')
        exact Or.inl (Or.inr (OrderedMap.mem_values_iff.mpr ⟨name, hname⟩))
      · refine Or.inr ⟨m', hm', y', name, ?_, hname⟩
        rw [hsame.meters]
        exact hy'

namespace Running

/-- **Collecting** the provider settles all instruments. -/
theorem collectProvider (h : Running P schedule plan s bound recorded finished)
    (perform : σ → SystemM σ Unit) :
    ∃ metrics s' role', SystemM.collectProvider perform P.provider s = (.ok metrics, s') ∧
      s.SameParts s' ∧
      Ensemble s' bound role' recorded (finished ++ metrics) fun _ => True := by
  obtain ⟨x, c, hx, -, hopen, -, hc⟩ := h.wired.provider
  obtain ⟨role, hens⟩ := h.ensemble
  obtain ⟨metrics, s', role', hcollect, hsame, h'⟩ :=
    hens.collectMeters h.registered perform c.now x.meters.values fun m hm => by
      obtain ⟨key, hkey⟩ := OrderedMap.mem_values_iff.mp hm
      obtain ⟨y, hy, -⟩ := (h.registered.meters hx).mp hkey
      exact ⟨y, hy⟩
  refine ⟨metrics, s', role', ?_, hsame, ?_⟩
  · unfold SystemM.collectProvider provider now clock
    simp only [bind_apply, get_apply, demand_apply, hx, hopen]
    rw [if_neg Bool.false_ne_true]
    simp only [bind_apply, get_apply, demand_apply, hc, pure_apply, hcollect]
  · refine h'.settle fun {r a} ha _ => Or.inr ?_
    obtain ⟨i, hi, -⟩ := Option.bind_eq_some_iff.mp ha
    obtain ⟨m, y, name, hy, hname⟩ := (h.registered.sameParts hsame).instruments hi
    rw [hsame.meters] at hy
    refine ⟨m, ?_, y, name, hy, hname⟩
    -- the provider knows the meter under its library
    have hkey : x.meters.get? (y.library.name, y.library.version) = some m :=
      (h.registered.meters hx).mpr ⟨y, hy, rfl⟩
    exact OrderedMap.mem_values_iff.mpr ⟨_, hkey⟩

end Running

end

/-! ### Exporting -/

/-- An exporter that keeps its metrics in memory takes them at once. -/
theorem Delivery.deliver_memory (limit : Number) (cap : Binary64) (metrics finished : List Metric) :
    deliver limit cap metrics (.memory finished false)
      = (⟨true, true, 1, [], []⟩, .memory (finished ++ metrics) false) := by
  have hfuel : ∃ fuel, ((allowed? limit).map (max 1)).getD (Exporter.memory finished false).patience
      = fuel + 1 := by
    cases allowed? limit with
    | none => exact ⟨0, rfl⟩
    | some n => exact ⟨max 1 n - 1, by simp only [Option.map_some, Option.getD_some]; omega⟩
  obtain ⟨fuel, hfuel⟩ := hfuel
  unfold deliver
  dsimp only
  rw [hfuel]
  rfl

namespace SystemM

theorem attempt_apply {α : Type} (x : SystemM σ α) (s : System σ) :
    attempt x s = (.ok (x s).1, (x s).2) := rfl

theorem modifySchedule_apply {s : System σ} {r : Ref .reader} {x : Reader} {schedule : Schedule}
    (hx : s.readers.get? r = some x) (hm : x.mode = .periodic schedule)
    (f : Schedule → Schedule) : modifySchedule r f s
      = (.ok (),
          { s with readers := s.readers.set r { x with mode := .periodic (f schedule) } }) := by
  unfold modifySchedule reader setReader
  simp only [bind_apply, get_apply, demand_apply, hx, hm, modify_apply]

theorem exportMetrics_apply {s : System σ} {schedule : Schedule} {cap : Binary64} {y : Exporter}
    (hcap : Delivery.seconds? schedule.timeout = some cap)
    (hy : s.exporters.get? schedule.exporter = some y) (metrics : List Metric) :
    exportMetrics schedule metrics s
      = ((Delivery.deliver schedule.attempts cap metrics y).1.answer, { s with
        exporters := s.exporters.set schedule.exporter
          (Delivery.deliver schedule.attempts cap metrics y).2
        log := s.log ++ (Delivery.deliver schedule.attempts cap metrics y).1.log
        waits := s.waits ++ (Delivery.deliver schedule.attempts cap metrics y).1.waits }) := by
  unfold exportMetrics exporter setExporter
  rw [hcap]
  simp only [bind_apply, get_apply, demand_apply, modify_apply, hy]
  cases (Delivery.deliver schedule.attempts cap metrics y).1.answer <;> rfl

theorem exportMetrics_memory {s : System σ} {e : Ref .exporter} {schedule : Schedule}
    {finished : List Metric} (hs : schedule.Serves e)
    (he : s.exporters.get? e = some (.memory finished false)) (metrics : List Metric) :
    exportMetrics schedule metrics s = (.ok true, { s with
      exporters := s.exporters.set e (.memory (finished ++ metrics) false) }) := by
  obtain ⟨cap, hcap⟩ := hs.timeout
  obtain rfl := hs.exporter
  rw [exportMetrics_apply hcap he, Delivery.deliver_memory]
  simp only [List.append_nil]
  rfl

end SystemM

section

variable {P : Pipeline} {schedule : Schedule} {plan : Ref .meter → String → Descriptor}
  {s s' : System σ} {bound : List (Ref .handle × LabelSet)}
  {recorded : List (Ref .instrument × LabelSet × Scalar)} {finished finished' : List Metric}

/-- The exporter keeps other metrics. -/
theorem Wired.setExporter (h : Wired P schedule s finished) :
    Wired P schedule { s with
      exporters := s.exporters.set P.exporter (.memory finished' false) } finished' :=
  ⟨h.provider, h.reader, h.serves, Table.get?_set_self _ h.exporter⟩

namespace Running

/-- **Collecting and exporting** makes what the exporter keeps longer, and settles all
instruments. -/
theorem collectAndExport (h : Running P schedule plan s bound recorded finished) {y : Schedule}
    (hy : y.Serves P.exporter) (perform : σ → SystemM σ Unit) :
    ∃ more s', SystemM.collectAndExport perform P.reader y s = (.ok true, s') ∧
      Running P schedule plan s' bound recorded (finished ++ more) ∧
      ∃ role, Ensemble s' bound role recorded (finished ++ more) fun _ => True := by
  obtain ⟨metrics, s', role, hcollect, hsame, h'⟩ := h.collectProvider perform
  obtain ⟨x, hx, hprovider, -⟩ := h.wired.reader
  have hreader : collectReader perform P.reader s = (.ok metrics, s') := by
    unfold collectReader reader
    simp only [bind_apply, get_apply, demand_apply, hx, hprovider, hcollect]
  have hwired := h.wired.sameParts hsame
  have hregistered := h.registered.sameParts hsame
  unfold SystemM.collectAndExport
  rw [bind_apply, attempt_apply, hreader]
  cases metrics with
  | nil =>
    -- the exporter is not even asked
    rw [List.append_nil] at h'
    refine ⟨[], s', rfl, ?_⟩
    rw [List.append_nil]
    exact ⟨⟨hwired, hregistered, role, h'.settle fun _ => False.elim⟩, role, h'⟩
  | cons m ms =>
    refine ⟨m :: ms, _, exportMetrics_memory hy hwired.exporter (m :: ms), ?_⟩
    have hens : Ensemble { s' with
        exporters := s'.exporters.set P.exporter (.memory (finished ++ m :: ms) false) }
        bound role recorded (finished ++ m :: ms) fun _ => True :=
      h'.congr rfl rfl rfl fun _ => id
    refine ⟨⟨hwired.setExporter, ?_, role, hens.settle fun _ => False.elim⟩, role, hens⟩
    exact hregistered.congr rfl rfl rfl

/-- The schedule may change as long as it serves the exporter. -/
theorem modifySchedule (h : Running P schedule plan s bound recorded finished)
    (f : Schedule → Schedule) (hf : (f schedule).Serves P.exporter) :
    ∃ s', SystemM.modifySchedule P.reader f s = (.ok (), s') ∧
      Running P (f schedule) plan s' bound recorded finished ∧
      ∀ {role settled}, Ensemble s bound role recorded finished settled →
        Ensemble s' bound role recorded finished settled := by
  obtain ⟨x, hx, hprovider, hmode⟩ := h.wired.reader
  obtain ⟨role, hens⟩ := h.ensemble
  have hkept : ∀ {role settled}, Ensemble s bound role recorded finished settled →
      Ensemble
        { s with readers := s.readers.set P.reader { x with mode := .periodic (f schedule) } }
        bound role recorded finished settled :=
    fun hens => hens.congr rfl rfl rfl fun _ => id
  refine ⟨_, modifySchedule_apply hx hmode f, ⟨⟨h.wired.provider, ?_, hf, h.wired.exporter⟩, ?_,
    role, hkept hens⟩, hkept⟩
  · exact ⟨_, Table.get?_set_self _ hx, hprovider, rfl⟩
  · exact h.registered.congr rfl rfl rfl

/-- **An interval** that passes; nothing happens if there are no intervals any more. -/
theorem tick (h : Running P schedule plan s bound recorded finished) (hg : schedule.Going)
    (perform : σ → SystemM σ Unit) :
    ∃ more, Running P schedule plan (SystemM.tick perform P.reader s).2 bound recorded
      (finished ++ more) := by
  obtain ⟨x, hx, -, hmode⟩ := h.wired.reader
  unfold SystemM.tick reader
  simp only [bind_apply, get_apply, demand_apply, hx, hmode]
  split
  case isFalse =>
    refine ⟨[], ?_⟩
    rw [List.append_nil]
    exact h
  obtain ⟨s₁, hbegin, h₁, -⟩ := h.modifySchedule (fun y => { y with inProgress := true })
    ⟨h.wired.serves.exporter, h.wired.serves.timeout⟩
  obtain ⟨more, s₂, hexport, h₂, -⟩ := h₁.collectAndExport h.wired.serves perform
  obtain ⟨s₃, hend, h₃, -⟩ := h₂.modifySchedule (fun y => { y with inProgress := false })
    ⟨h.wired.serves.exporter, h.wired.serves.timeout⟩
  -- no interval was in progress when this one began
  have hsame : ({ schedule with inProgress := false } : Schedule) = schedule := by
    rw [← hg.inProgress]
  simp only [bind_apply, attempt_apply, hbegin, hexport, hend, pure_apply]
  refine ⟨more, ?_⟩
  rw [← hsame]
  exact h₃

/-- **A flush** of the provider. -/
theorem flushProvider (h : Running P schedule plan s bound recorded finished)
    (hg : schedule.Going) (perform : σ → SystemM σ Unit) :
    ∃ more, Running P schedule plan (SystemM.flushProvider perform P.provider s).2 bound recorded
      (finished ++ more) := by
  obtain ⟨p, c, hp, -, -, hreaders, -⟩ := h.wired.provider
  obtain ⟨x, hx, -, hmode⟩ := h.wired.reader
  obtain ⟨more, s', hexport, h', -⟩ := h.collectAndExport h.wired.serves perform
  have hflush : flushReader perform P.reader s = (.ok true, s') := by
    unfold flushReader reader
    simp only [bind_apply, get_apply, demand_apply, hx, hmode, hg.isShutDown]
    rw [if_neg Bool.false_ne_true, hexport]
  unfold SystemM.flushProvider flushReaders provider
  simp only [bind_apply, get_apply, demand_apply, hp, hreaders, hflush]
  exact ⟨more, h'⟩

end Running

end

end Metering
