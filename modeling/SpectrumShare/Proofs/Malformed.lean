import SpectrumShare.Proofs.Relevance

/-! # Malformed ranges

A range is malformed when an edge is not finite or the edges are not in ascending order. The range that is
looked at is the one that a target is planned on, which for an area is the one on record and for an earth
station is made from its low edge and an edge of the band. So a malformed range of an area is refused, and
one of a station only if its low edge is at fault. -/

namespace SpectrumShare.Engine

open Allocation FrequencyRange

variable {σ α : Type} [Scalar α] [Decibel α] {e : Engine σ α} {records : List (Licence α)}
  {grants : GrantSet α}

/-! ## From the duty to the answer -/

section

variable {entity : Entity α}

theorem protect_exempt (due : e.duty records entity = .ok .exempt) :
    e.protect entity grants records = pure none := by
  simp only [protect, due, orRefuse, pure_bind]

theorem protect_idle (due : e.duty records entity = .ok .idle) :
    e.protect entity grants records = pure (some .empty) := by
  simp only [protect, due, orRefuse, pure_bind]

/-- Entities towards which the duty is the same get the same answer. -/
theorem protect_congr {other : Entity α} (same : e.duty records entity = e.duty records other) :
    e.protect entity grants records = e.protect other grants records := by
  rw [protect, protect, same]

/-- A target with a malformed span is refused before any grant is looked at. -/
theorem protect_of_malformed {target : Target α} (due : e.duty records entity = .ok (.protect target))
    (malformed : target.span.isValid = false) (m : σ) :
    runFrom (e.protect entity grants records) m =
      (.error (.refused (.invalidRange target.span.low target.span.high)), m) := by
  have invalid : target.span.validate = .error (.invalidRange target.span.low target.span.high) :=
    if_neg (by rw [malformed]; exact Bool.false_ne_true)
  have refused : e.plan target = .error (.invalidRange target.span.low target.span.high) := by
    rw [plan, ChannelPlan.resolve, invalid]
    rfl
  simp only [protect, due, orRefuse, pure_bind, allowances, aggregate, refused]
  rfl

end

/-! ## The ranges of areas -/

theorem protect_gwpz_malformed {area : GrandfatheredArea α} {range : FrequencyRange α} {region : Region}
    {points : List (Position α)} (declared : area.range = some range) (clutter : area.clutter = some region)
    (laid : e.grid area.zone e.rules.gridResolution = .ok points) (malformed : range.isValid = false)
    (m : σ) :
    runFrom (e.protect (.gwpz area) grants records) m =
      (.error (.refused (.invalidRange range.low range.high)), m) := by
  have due : e.duty records (.gwpz area) = .ok (.protect ⟨.gwpz, range, .grid points, .area region⟩) := by
    refine bind_eq_ok.2 ⟨range, by rw [declared, require], ?_⟩
    refine bind_eq_ok.2 ⟨region, by rw [clutter, require], ?_⟩
    exact bind_eq_ok.2 ⟨points, laid, rfl⟩
  exact protect_of_malformed due malformed m

theorem protect_ppa_malformed {area : LicensedArea α} {licence : String} {region : Region}
    {record : Licence α} {points : List (Position α)} (first : area.licences.head? = some licence)
    (clutter : area.region = some region) (found : records.find? (·.id == licence) = some record)
    (laid : e.grid area.zone e.rules.gridResolution = .ok points)
    (malformed : record.assignment.isValid = false) (m : σ) :
    runFrom (e.protect (.ppa area) grants records) m =
      (.error (.refused (.invalidRange record.assignment.low record.assignment.high)), m) := by
  have due : e.duty records (.ppa area) =
      .ok (.protect ⟨.ppa, record.assignment, .grid points, .area region⟩) := by
    refine bind_eq_ok.2 ⟨licence, by rw [first, require], ?_⟩
    refine bind_eq_ok.2 ⟨region, by rw [clutter, require], ?_⟩
    simp only [found]
    exact bind_eq_ok.2 ⟨points, laid, rfl⟩
  exact protect_of_malformed due malformed m

/-! ## The ranges of earth stations -/

/-- A station in the telemetry band that does not carry telemetry. -/
def Exempt (range : FrequencyRange α) (carries : Bool) : Prop :=
  (telemetry : FrequencyRange α).low ≤ range.low ∧ range.high ≤ (telemetry : FrequencyRange α).high ∧
    carries = false

instance (range : FrequencyRange α) (carries : Bool) : Decidable (Exempt range carries) :=
  inferInstanceAs (Decidable (_ ∧ _ ∧ _))

section

variable {station : EarthStation α} {range : FrequencyRange α} (declared : station.range = some range)
include declared

omit [Decibel α] in
theorem duty_cochannel : e.duty records (.fssCochannel station) =
    .ok (if (cbrs : FrequencyRange α).high ≤ range.low then .idle
      else .protect ⟨.fssCochannel, ⟨range.low, cbrs.high⟩, .station station.position,
        .dish station.pointing⟩) := by
  refine bind_eq_ok.2 ⟨range, by rw [declared, require], ?_⟩
  dsimp only
  split
  · rfl
  · rfl

omit [Decibel α] in
theorem duty_blocking {carries : Bool} (flagged : station.telemetry = some carries) :
    e.duty records (.fssBlocking station) =
      .ok (if Exempt range carries then .exempt
        else if range.low ≤ (cbrs : FrequencyRange α).low then .idle
        else .protect ⟨.fssBlocking, ⟨cbrs.low, range.low⟩, .station station.position,
          .dish station.pointing⟩) := by
  refine bind_eq_ok.2 ⟨range, by rw [declared, require], ?_⟩
  refine bind_eq_ok.2 ⟨carries, by rw [flagged, require], ?_⟩
  dsimp only
  by_cases exempt : Exempt range carries
  · rw [if_pos exempt]
    exact if_pos exempt
  · rw [if_neg exempt]
    refine (if_neg exempt).trans ?_
    split
    · rfl
    · rfl

/-- The high edge of a station is not looked at inside its own band. -/
theorem protect_cochannel_edge (high : α) :
    e.protect (.fssCochannel { station with range := some ⟨range.low, high⟩ }) grants records =
      e.protect (.fssCochannel station) grants records := by
  apply protect_congr
  rw [duty_cochannel declared, duty_cochannel rfl]
  rfl

/-- Nor is it for blocking, but for the exemption. -/
theorem protect_blocking_edge {carries : Bool} (flagged : station.telemetry = some carries) {high : α}
    (same : Exempt ⟨range.low, high⟩ carries ↔ Exempt range carries) :
    e.protect (.fssBlocking { station with range := some ⟨range.low, high⟩ }) grants records =
      e.protect (.fssBlocking station) grants records := by
  apply protect_congr
  have changed : ({ station with range := some ⟨range.low, high⟩ } : EarthStation α).range =
      some ⟨range.low, high⟩ := rfl
  rw [duty_blocking declared flagged, duty_blocking changed flagged]
  simp only [same]
  rfl

theorem protect_cochannel_malformed (m : σ) (within : ¬(cbrs : FrequencyRange α).high ≤ range.low)
    (malformed : isValid ⟨range.low, (cbrs : FrequencyRange α).high⟩ = false) :
    runFrom (e.protect (.fssCochannel station) grants records) m =
      (.error (.refused (.invalidRange range.low cbrs.high)), m) := by
  have due : e.duty records (.fssCochannel station) = _ := duty_cochannel declared
  rw [if_neg within] at due
  exact protect_of_malformed due malformed m

theorem protect_blocking_malformed {carries : Bool} (flagged : station.telemetry = some carries) (m : σ)
    (liable : ¬Exempt range carries) (within : ¬range.low ≤ (cbrs : FrequencyRange α).low)
    (malformed : isValid ⟨(cbrs : FrequencyRange α).low, range.low⟩ = false) :
    runFrom (e.protect (.fssBlocking station) grants records) m =
      (.error (.refused (.invalidRange cbrs.low range.low)), m) := by
  have due : e.duty records (.fssBlocking station) = _ := duty_blocking declared flagged
  rw [if_neg liable, if_neg within] at due
  exact protect_of_malformed due malformed m

end

/-- **Which malformed ranges are refused.** An area whose range is malformed is refused, naming the range,
whatever the grants are and before the model is asked. Of a station it is the span between its low edge and
an edge of the band that is checked, and nothing is checked when nothing of it lies in the band or when it
is exempt. Its high edge only tells whether it is exempt: otherwise a malformed range is answered like any
range with its low edge. -/
theorem malformed_ranges (e : Engine σ α) (grants : GrantSet α) (records : List (Licence α)) (m : σ) :
    (∀ area range region points, area.range = some range → area.clutter = some region →
      e.grid area.zone e.rules.gridResolution = .ok points → range.isValid = false →
      runFrom (e.protect (.gwpz area) grants records) m =
        (.error (.refused (.invalidRange range.low range.high)), m)) ∧
    (∀ area licence region record points, area.licences.head? = some licence →
      area.region = some region → records.find? (·.id == licence) = some record →
      e.grid area.zone e.rules.gridResolution = .ok points → record.assignment.isValid = false →
      runFrom (e.protect (.ppa area) grants records) m =
        (.error (.refused (.invalidRange record.assignment.low record.assignment.high)), m)) ∧
    (∀ station range, station.range = some range →
      ((cbrs : FrequencyRange α).high ≤ range.low →
        runFrom (e.protect (.fssCochannel station) grants records) m = (.ok (some .empty), m)) ∧
      (¬(cbrs : FrequencyRange α).high ≤ range.low →
        isValid ⟨range.low, (cbrs : FrequencyRange α).high⟩ = false →
        runFrom (e.protect (.fssCochannel station) grants records) m =
          (.error (.refused (.invalidRange range.low cbrs.high)), m)) ∧
      ∀ high, e.protect (.fssCochannel { station with range := some ⟨range.low, high⟩ }) grants records =
        e.protect (.fssCochannel station) grants records) ∧
    ∀ station range carries, station.range = some range → station.telemetry = some carries →
      (Exempt range carries →
        runFrom (e.protect (.fssBlocking station) grants records) m = (.ok none, m)) ∧
      (¬Exempt range carries → range.low ≤ (cbrs : FrequencyRange α).low →
        runFrom (e.protect (.fssBlocking station) grants records) m = (.ok (some .empty), m)) ∧
      (¬Exempt range carries → ¬range.low ≤ (cbrs : FrequencyRange α).low →
        isValid ⟨(cbrs : FrequencyRange α).low, range.low⟩ = false →
        runFrom (e.protect (.fssBlocking station) grants records) m =
          (.error (.refused (.invalidRange cbrs.low range.low)), m)) ∧
      ∀ high, (Exempt ⟨range.low, high⟩ carries ↔ Exempt range carries) →
        e.protect (.fssBlocking { station with range := some ⟨range.low, high⟩ }) grants records =
          e.protect (.fssBlocking station) grants records := by
  refine ⟨?_, ?_, ?_, ?_⟩
  · intro area range region points declared clutter laid malformed
    exact protect_gwpz_malformed declared clutter laid malformed m
  · intro area licence region record points first clutter found laid malformed
    exact protect_ppa_malformed first clutter found laid malformed m
  · intro station range declared
    refine ⟨fun above => ?_, protect_cochannel_malformed declared m, protect_cochannel_edge declared⟩
    have due : e.duty records (.fssCochannel station) = _ := duty_cochannel declared
    rw [if_pos above] at due
    rw [protect_idle due, runFrom_pure]
  · intro station range carries declared flagged
    have due : e.duty records (.fssBlocking station) = _ := duty_blocking declared flagged
    refine ⟨fun exempt => ?_, fun liable below => ?_, protect_blocking_malformed declared flagged m,
      fun high => protect_blocking_edge declared flagged⟩
    · rw [if_pos exempt] at due
      rw [protect_exempt due, runFrom_pure]
    · rw [if_neg liable, if_pos below] at due
      rw [protect_idle due, runFrom_pure]

/-- A station that does not carry telemetry. -/
def receiverAt (low high : ℚ) : EarthStation ℚ :=
  ⟨"receiver", ⟨37, -122⟩, 10, 40, 180, 30, some ⟨low, high⟩, some false⟩

/-- An area with the edges of its range in the wrong order is refused. A station with such a range inside
the shared band is answered like one with a range in order. -/
theorem malformed_ranges_reversed :
    runFrom (lossyEngine.protect (.gwpz ⟨"valley", valley, some .rural, some ⟨3660000000, 3650000000⟩⟩)
        valleyGrants []) () = (.error (.refused (.invalidRange 3660000000 3650000000)), ()) ∧
      runFrom (lossyEngine.protect (.ppa ⟨"valley", valley, some .rural, ["pal"]⟩) valleyGrants
        [⟨"pal", ⟨3660000000, 3650000000⟩⟩]) () =
          (.error (.refused (.invalidRange 3660000000 3650000000)), ()) ∧
      lossyEngine.protect (.fssCochannel (receiverAt 3600000000 3500000000)) coastGrants [] =
        lossyEngine.protect (.fssCochannel (receiverAt 3600000000 4200000000)) coastGrants [] ∧
      lossyEngine.protect (.fssBlocking (receiverAt 3600000000 3500000000)) coastGrants [] =
        lossyEngine.protect (.fssBlocking (receiverAt 3600000000 4200000000)) coastGrants [] := by
  have malformed : isValid (⟨3660000000, 3650000000⟩ : FrequencyRange ℚ) = false := by decide +kernel
  obtain ⟨grandfathered, -⟩ := malformed_ranges lossyEngine valleyGrants [] ()
  obtain ⟨-, licensed, -⟩ :=
    malformed_ranges lossyEngine valleyGrants [⟨"pal", ⟨3660000000, 3650000000⟩⟩] ()
  obtain ⟨-, -, cochannel, blocking⟩ := malformed_ranges lossyEngine coastGrants [] ()
  refine ⟨?_, ?_, ?_, ?_⟩
  · exact grandfathered _ _ .rural valley rfl rfl rfl malformed
  · exact licensed _ "pal" .rural ⟨"pal", _⟩ valley rfl rfl (by decide) rfl malformed
  · obtain ⟨-, -, edge⟩ := cochannel (receiverAt 3600000000 4200000000) _ rfl
    exact edge 3500000000
  · obtain ⟨-, -, -, edge⟩ := blocking (receiverAt 3600000000 4200000000) _ false rfl rfl
    exact edge 3500000000 (by decide +kernel)

/-- A station whose range ends below where it begins is let off, or told that nothing of it lies in the
band; one such inside the band is protected. -/
theorem reversed_range_exempt :
    isValid (⟨3800000000, 3750000000⟩ : FrequencyRange ℚ) = false ∧
      runFrom (lossyEngine.protect (.fssBlocking (receiverAt 3800000000 3750000000)) coastGrants []) () =
        (.ok none, ()) ∧
      runFrom (lossyEngine.protect (.fssCochannel (receiverAt 3800000000 3750000000)) coastGrants []) () =
        (.ok (some .empty), ()) ∧
      isValid (⟨3600000000, 3500000000⟩ : FrequencyRange ℚ) = false ∧
      (runFrom (lossyEngine.protect (.fssCochannel (receiverAt 3600000000 3500000000)) coastGrants [])
        ()).1.toOption.join.isSome = true := by
  refine ⟨by decide +kernel, rfl, rfl, by decide +kernel, by decide +kernel⟩

end SpectrumShare.Engine
