import Mathlib
import NodeTelemetry.Proofs.Accumulator.Views
import NodeTelemetry.Proofs.Computation
import NodeTelemetry.Proofs.Scalar.Order
import NodeTelemetry.TransferRate

/-!
What a meter makes of a row of readings. A reading is compared with the one right before it, whatever
that one yielded, and then takes its place. So however the clock and the counters go, every byte that is
counted between two readings that yield a rate is in one rate, and in one only.
-/

set_option autoImplicit false

namespace NodeTelemetry

open Scalar (ofInt)

inductive Direction where
  | upload
  | download
  deriving Repr, DecidableEq

namespace VolumeSnapshot

def elapsed (before now : VolumeSnapshot) : Int := now.observedAt.toInt - before.observedAt.toInt

/-- The time between two readings is a signed 64-bit number. -/
def Spaced (before now : VolumeSnapshot) : Prop :=
  Word.smallestSigned ≤ elapsed before now ∧ elapsed before now ≤ Word.largestSigned

instance (before now : VolumeSnapshot) : Decidable (Spaced before now) :=
  inferInstanceAs (Decidable (_ ∧ _))

def steps (readings : List VolumeSnapshot) : List (VolumeSnapshot × VolumeSnapshot) :=
  readings.zip readings.tail

private theorem steps_cons_cons (before now : VolumeSnapshot) (readings : List VolumeSnapshot) :
    steps (before :: now :: readings) = (before, now) :: steps (now :: readings) :=
  rfl

variable {before now : VolumeSnapshot}

private theorem elapsed_pos_iff : 0 < elapsed before now ↔ before.observedAt < now.observedAt := by
  rw [elapsed, Int64.lt_iff_toInt_lt]
  omega

private theorem Spaced.toInt_sub (h : Spaced before now) :
    (now.observedAt - before.observedAt).toInt = elapsed before now := by
  unfold Spaced Word.smallestSigned Word.largestSigned at h
  rw [Int64.toInt_sub]
  exact Int.bmod_eq_of_le (by unfold elapsed at *; omega) (by unfold elapsed at *; omega)

end VolumeSnapshot

open VolumeSnapshot (elapsed Spaced steps)

namespace Direction

def speed : Direction → Metric
  | upload => .uploadSpeed
  | download => .downloadSpeed

def counter (counters : VolumeCounters) : Direction → Nat
  | upload => counters.uploaded.toNat
  | download => counters.downloaded.toNat

def rate {α : Type} (rate : TransferRate α) : Direction → α
  | upload => rate.upload
  | download => rate.download

variable (direction : Direction)

/-- The bytes that a counter went up by from one reading to another; none where it went back. -/
def gain (before now : VolumeSnapshot) : Nat :=
  direction.counter now.counters - direction.counter before.counters

def perSecond {α : Type} [Scalar α] (before now : VolumeSnapshot) : α :=
  (Scalar.ofNat (direction.gain before now) : α) * ofInt 1000 / ofInt (elapsed before now)

/-- The bytes that the counter went up by in the steps of a row that go forward in time. -/
def counted (readings : List VolumeSnapshot) : Nat :=
  (((steps readings).filter fun step => step.1.observedAt < step.2.observedAt).map fun step =>
    direction.gain step.1 step.2).sum

private theorem counted_cons_cons (before now : VolumeSnapshot) (readings : List VolumeSnapshot) :
    direction.counted (before :: now :: readings) =
      (if before.observedAt < now.observedAt then direction.gain before now else 0) +
        direction.counted (now :: readings) := by
  rw [counted, VolumeSnapshot.steps_cons_cons, List.filter_cons, counted]
  by_cases hlater : before.observedAt < now.observedAt
  · rw [if_pos (decide_eq_true hlater), if_pos hlater, List.map_cons, List.sum_cons]
  · rw [if_neg fun h => hlater (of_decide_eq_true h), if_neg hlater, Nat.zero_add]

private theorem counter_add_counted {readings : List VolumeSnapshot}
    (h : readings.IsChain fun before now => before.observedAt < now.observedAt ∧
      direction.counter before.counters ≤ direction.counter now.counters)
    {first last : VolumeSnapshot} (hfirst : first ∈ readings.head?)
    (hlast : last ∈ readings.getLast?) :
    direction.counter first.counters + direction.counted readings =
      direction.counter last.counters := by
  induction readings generalizing first with
  | nil => cases hfirst
  | cons before readings ih =>
    cases hfirst
    cases readings with
    | nil =>
      cases hlast
      rfl
    | cons now readings =>
      obtain ⟨⟨hlater, hcounter⟩, hrest⟩ := List.isChain_cons_cons.1 h
      have hwhole := ih hrest rfl hlast
      rw [counted_cons_cons, if_pos hlater, gain]
      omega

/-- The bytes that a step stands for by what it yielded: the rate over the time, if there is one. -/
def bytes (step : VolumeSnapshot × VolumeSnapshot) :
    Except EngineError (Option (RateSample Rat)) → Rat
  | .ok (some sample) => direction.rate sample.rate * (elapsed step.1 step.2 : Rat) / 1000
  | _ => 0

/-- The bytes that the steps of a row stand for by what its readings yielded; the first reading ends no
step. -/
def measured (readings : List VolumeSnapshot)
    (results : List (Except EngineError (Option (RateSample Rat)))) : Rat :=
  (List.zipWith direction.bytes (steps readings) results.tail).sum

end Direction

/-! ### Rates -/

section rates

variable {α : Type} [Scalar α] {before now : VolumeSnapshot}

private theorem TransferRate.between?_eq (h : Spaced before now) :
    (between? before now : Option (TransferRate α)) =
      if before.observedAt < now.observedAt
      then some ⟨Direction.upload.perSecond before now, Direction.download.perSecond before now⟩
      else none := by
  have hpos : 0 < now.observedAt - before.observedAt ↔ before.observedAt < now.observedAt := by
    rw [← VolumeSnapshot.elapsed_pos_iff, Int64.lt_iff_toInt_lt, h.toInt_sub]
    rfl
  have hrate : ∀ counted counted' : UInt64,
      (ofCounter counted counted' (now.observedAt - before.observedAt) : α) =
        (Scalar.ofNat (counted'.toNat - counted.toNat) : α) * ofInt 1000 / ofInt (elapsed before now) := by
    intro counted counted'
    rw [ofCounter, Scalar.ofTime, h.toInt_sub]
  simp only [between?, hpos, hrate]
  rfl

end rates

/-! ### One reading -/

namespace RateMeter

variable {α : Type} [Scalar α]

def advance (state : RateMeter × AccumulatorSet α) (now : VolumeSnapshot) :
    RateMeter × AccumulatorSet α :=
  ((state.1.tick (α := α) now).1, ((state.1.tick now).2.run state.2).2)

def result (state : RateMeter × AccumulatorSet α) (now : VolumeSnapshot) :
    Except EngineError (Option (RateSample α)) :=
  ((state.1.tick now).2.run state.2).1

def advanceAll (state : RateMeter × AccumulatorSet α) (readings : List VolumeSnapshot) :
    RateMeter × AccumulatorSet α :=
  readings.foldl advance state

def results : RateMeter × AccumulatorSet α → List VolumeSnapshot →
    List (Except EngineError (Option (RateSample α)))
  | _, [] => []
  | state, now :: readings => result state now :: results (advance state now) readings

def Reaches (view : GroupKind) (set : AccumulatorSet α) : Prop :=
  ∀ direction : Direction, ∃ accumulator, set.lookup view direction.speed.name = .ok accumulator

/-- What a reading does to the accumulators, by the reading before it and what it yields. -/
structure Accounts (view : GroupKind) (before? : Option VolumeSnapshot) (now : VolumeSnapshot)
    (set : AccumulatorSet α) (sample? : Option (RateSample α)) (after : AccumulatorSet α) : Prop where
  /-- There is a sample exactly if there is a reading before and this one is later. -/
  yields : sample?.isSome ↔ ∃ before ∈ before?, before.observedAt < now.observedAt
  /-- The rates of a sample are those of the step from the reading before. -/
  rates : ∀ sample ∈ sample?, ∀ before ∈ before?, ∀ direction : Direction,
    direction.rate sample.rate = direction.perSecond before now
  /-- Without a sample the accumulators stay as they are. -/
  idle : sample? = none → after = set
  /-- With a sample each speed accumulator takes in its rate, and nothing else. -/
  fed : ∀ sample ∈ sample?, ∀ direction : Direction, ∃ accumulator entered,
    set.lookup view direction.speed.name = .ok accumulator ∧
      after.lookup view direction.speed.name = .ok entered ∧
      accumulator.Gains (direction.rate sample.rate) entered
  /-- All other accumulators stay as they are. -/
  others : ∀ kind name, (∀ direction : Direction, name ≠ direction.speed.name) →
    after.lookup kind name = set.lookup kind name

variable {view : GroupKind} {set : AccumulatorSet α} {now : VolumeSnapshot}

omit [Scalar α] in
private theorem ofView_eq_ok_iff {meter : RateMeter} :
    ofView set view = .ok meter ↔ meter = ⟨view, none⟩ ∧ Reaches view set := by
  have hreaches : Reaches view set ↔
      (∃ upload, set.lookup view Metric.uploadSpeed.name = .ok upload) ∧
        ∃ download, set.lookup view Metric.downloadSpeed.name = .ok download :=
    ⟨fun h => ⟨h .upload, h .download⟩, fun h direction => by
      cases direction with
      | upload => exact h.1
      | download => exact h.2⟩
  rw [ofView, hreaches]
  cases set.lookup view Metric.uploadSpeed.name with
  | error error => exact ⟨nofun, fun h => nomatch h.2.1⟩
  | ok upload =>
    cases set.lookup view Metric.downloadSpeed.name with
    | error error => exact ⟨nofun, fun h => nomatch h.2.2⟩
    | ok download =>
      constructor
      · rintro ⟨⟩
        exact ⟨rfl, ⟨upload, rfl⟩, download, rfl⟩
      · rintro ⟨rfl, -⟩
        rfl

private theorem run_record (h : Reaches view set) (now : VolumeSnapshot) (rate : TransferRate α) :
    ∃ sample after, (record view now rate).run set = (.ok sample, after) ∧ sample.rate = rate ∧
      (∀ direction : Direction, ∃ accumulator,
        set.lookup view direction.speed.name = .ok accumulator ∧
          after.lookup view direction.speed.name =
            .ok (accumulator.insert (direction.rate rate))) ∧
      ∀ kind name, (∀ direction : Direction, name ≠ direction.speed.name) →
        after.lookup kind name = set.lookup kind name := by
  obtain ⟨upload, hupload⟩ := h .upload
  obtain ⟨download, hdownload⟩ := h .download
  have hdistinct : Direction.download.speed.name ≠ Direction.upload.speed.name := by decide
  let first := set.modify Direction.upload.speed.name fun _ => upload.insert rate.upload
  let second := first.modify Direction.download.speed.name fun _ => download.insert rate.download
  have hfirst : first.lookup view Direction.download.speed.name = .ok download :=
    (set.lookup_modify_of_ne view hdistinct _).trans hdownload
  have hrun : (record view now rate).run set = (.ok _, second) :=
    (Computation.run_feed_bind hupload _ _).trans (Computation.run_feed_bind hfirst _ _)
  refine ⟨_, second, hrun, rfl, fun direction => ?_, fun kind name hother => ?_⟩
  · cases direction with
    | upload =>
      exact ⟨upload, hupload, (first.lookup_modify_of_ne view hdistinct.symm _).trans
        (AccumulatorSet.lookup_modify hupload _)⟩
    | download => exact ⟨download, hdownload, AccumulatorSet.lookup_modify hfirst _⟩
  · exact (first.lookup_modify_of_ne kind (hother .download) _).trans
      (set.lookup_modify_of_ne kind (hother .upload) _)

private theorem accounts_of_not_later {before? : Option VolumeSnapshot}
    (h : ¬∃ before ∈ before?, before.observedAt < now.observedAt) :
    Accounts view before? now set none set where
  yields := iff_of_false nofun h
  rates := nofun
  idle _ := rfl
  fed := nofun
  others _ _ _ := rfl

private theorem advance_of_run {meter : RateMeter}
    {outcome : Except EngineError (Option (RateSample α))}
    {after : AccumulatorSet α} (h : (meter.tick now).2.run set = (outcome, after)) :
    result (meter, set) now = outcome ∧
      advance (meter, set) now = (⟨meter.view, some now⟩, after) := by
  rw [result, advance, h]
  exact ⟨rfl, rfl⟩

private theorem accounts_advance (hreaches : Reaches view set) {before? : Option VolumeSnapshot}
    (hspaced : ∀ before ∈ before?, Spaced before now) :
    ∃ sample? after, result (⟨view, before?⟩, set) now = .ok sample? ∧
      advance (⟨view, before?⟩, set) now = (⟨view, some now⟩, after) ∧
      Accounts view before? now set sample? after ∧ Reaches view after := by
  cases before? with
  | none =>
    exact ⟨none, set, rfl, rfl, accounts_of_not_later nofun, hreaches⟩
  | some before =>
    have hbetween := TransferRate.between?_eq (α := α) (hspaced before rfl)
    by_cases hlater : before.observedAt < now.observedAt
    · rw [if_pos hlater] at hbetween
      obtain ⟨sample, after, hrun, hrate, hfed, hothers⟩ := run_record hreaches now _
      have htick : (tick ⟨view, some before⟩ now).2.run set = (.ok (some sample), after) := by
        rw [tick, Option.bind_some, hbetween]
        exact (Computation.run_map some _ set).trans (by rw [hrun]; rfl)
      obtain ⟨hresult, hadvance⟩ := advance_of_run htick
      refine ⟨some sample, after, hresult, hadvance, ⟨?_, ?_, nofun, ?_, hothers⟩,
        fun direction => ?_⟩
      · exact iff_of_true rfl ⟨before, rfl, hlater⟩
      · rintro _ ⟨⟩ _ ⟨⟩ direction
        rw [hrate]
        cases direction <;> rfl
      · rintro _ ⟨⟩ direction
        obtain ⟨accumulator, hbefore, hafter⟩ := hfed direction
        rw [hrate]
        exact ⟨accumulator, _, hbefore, hafter, accumulator.gains_insert _⟩
      · obtain ⟨accumulator, -, hafter⟩ := hfed direction
        exact ⟨_, hafter⟩
    · rw [if_neg hlater] at hbetween
      have htick : (tick ⟨view, some before⟩ now).2.run set =
          (.ok (none : Option (RateSample α)), set) := by
        rw [tick, Option.bind_some, hbetween]
        rfl
      obtain ⟨hresult, hadvance⟩ := advance_of_run htick
      refine ⟨none, set, hresult, hadvance, accounts_of_not_later ?_, hreaches⟩
      rintro ⟨_, ⟨⟩, h⟩
      exact hlater h

/-! ### Rows of readings -/

private theorem advanceAll_eq (hreaches : Reaches view set) {readings : List VolumeSnapshot}
    (hspaced : readings.IsChain Spaced) :
    ∃ after, advanceAll (⟨view, none⟩, set) readings = (⟨view, readings.getLast?⟩, after) ∧
      Reaches view after := by
  induction readings using List.reverseRecOn with
  | nil => exact ⟨set, rfl, hreaches⟩
  | append_singleton earlier now ih =>
    obtain ⟨hearlier, -, hlast⟩ := List.isChain_append.1 hspaced
    obtain ⟨set', hrun, hreaches'⟩ := ih hearlier
    obtain ⟨sample?, after, -, hadvance, -, hafter⟩ :=
      accounts_advance hreaches' fun before hbefore => hlast before hbefore now rfl
    refine ⟨after, ?_, hafter⟩
    rw [List.getLast?_concat, ← hadvance, ← hrun]
    exact List.foldl_concat ..

/-- A step that yields a rate stands for its gain, and one that yields none for nothing. -/
theorem Accounts.bytes_eq {before : VolumeSnapshot} {set after : AccumulatorSet Rat}
    {sample? : Option (RateSample Rat)} (h : Accounts view (some before) now set sample? after)
    (direction : Direction) :
    direction.bytes (before, now) (.ok sample?) =
      if before.observedAt < now.observedAt then (direction.gain before now : Rat) else 0 := by
  have hyields : sample?.isSome ↔ before.observedAt < now.observedAt := by simpa using h.yields
  cases sample? with
  | none =>
    rw [if_neg fun hlater => nomatch hyields.2 hlater]
    rfl
  | some sample =>
    have hlater := hyields.1 rfl
    have helapsed : (elapsed before now : Rat) ≠ 0 :=
      Int.cast_ne_zero.2 (VolumeSnapshot.elapsed_pos_iff.2 hlater).ne'
    rw [if_pos hlater]
    show direction.rate sample.rate * (elapsed before now : Rat) / 1000 = _
    rw [h.rates sample rfl before rfl direction]
    show (((direction.gain before now : Int) : Rat) * ((1000 : Int) : Rat) / (elapsed before now : Rat)) *
      (elapsed before now : Rat) / 1000 = _
    rw [div_mul_cancel₀ _ helapsed, Int.cast_natCast]
    norm_num

private theorem sum_bytes_results {before : VolumeSnapshot} {set : AccumulatorSet Rat}
    (hreaches : Reaches view set) {readings : List VolumeSnapshot}
    (hspaced : (before :: readings).IsChain Spaced) (direction : Direction) :
    (List.zipWith direction.bytes (steps (before :: readings))
        (results (⟨view, some before⟩, set) readings)).sum =
      (direction.counted (before :: readings) : Rat) := by
  induction readings generalizing before set with
  | nil => rfl
  | cons now readings ih =>
    rw [List.isChain_cons_cons] at hspaced
    have hnear : ∀ other ∈ some before, Spaced other now := by
      rintro _ ⟨⟩
      exact hspaced.1
    obtain ⟨sample?, after, hresult, hadvance, haccounts, hafter⟩ := accounts_advance hreaches hnear
    rw [results, VolumeSnapshot.steps_cons_cons, List.zipWith_cons_cons, List.sum_cons, hresult,
      hadvance, haccounts.bytes_eq, ih hafter hspaced.2, Direction.counted_cons_cons]
    push_cast
    rfl

/-- A meter accounts for every byte once. A reading yields a rate exactly if it is later than the one
right before it, whatever that one yielded, and the rate is then all that is fed. So what the rates stand
for over their times is what the counters went up by in the steps that yield one; where the clock goes
forward and a counter does not go back, that is all the bytes from the first reading to the last. -/
theorem bytes_counted_once (view : GroupKind) (readings : List VolumeSnapshot)
    (hspaced : readings.IsChain Spaced) :
    (∀ (α : Type) [Scalar α] (set : AccumulatorSet α) (meter : RateMeter),
      ofView set view = .ok meter → ∀ earlier now later, readings = earlier ++ now :: later →
        let state := advanceAll (meter, set) earlier
        ∃ sample? after, result state now = .ok sample? ∧
          advance state now = (⟨view, some now⟩, after) ∧
          Accounts view earlier.getLast? now state.2 sample? after) ∧
    ∀ (set : AccumulatorSet Rat) (meter : RateMeter), ofView set view = .ok meter →
      ∀ direction : Direction,
        let measured := direction.measured readings (results (meter, set) readings)
        measured = direction.counted readings ∧
          (readings.IsChain (fun before now => before.observedAt < now.observedAt ∧
              direction.counter before.counters ≤ direction.counter now.counters) →
            ∀ first ∈ readings.head?, ∀ last ∈ readings.getLast?,
              measured = direction.counter last.counters - direction.counter first.counters) := by
  constructor
  · rintro α _ set meter hmeter earlier now later rfl
    obtain ⟨rfl, hreaches⟩ := ofView_eq_ok_iff.1 hmeter
    obtain ⟨hearlier, -, hlast⟩ := List.isChain_append.1 hspaced
    obtain ⟨set', hrun, hreaches'⟩ := advanceAll_eq hreaches hearlier
    obtain ⟨sample?, after, hresult, hadvance, haccounts, -⟩ :=
      accounts_advance hreaches' fun before hbefore => hlast before hbefore now rfl
    intro state
    rw [show state = _ from hrun]
    exact ⟨sample?, after, hresult, hadvance, haccounts⟩
  · intro set meter hmeter direction measured
    obtain ⟨rfl, hreaches⟩ := ofView_eq_ok_iff.1 hmeter
    have hmeasured : measured = direction.counted readings := by
      cases readings with
      | nil => rfl
      | cons first readings => exact sum_bytes_results hreaches hspaced direction
    refine ⟨hmeasured, fun hascends first hfirst last hlast => ?_⟩
    rw [hmeasured, ← direction.counter_add_counted hascends hfirst hlast]
    push_cast
    ring

/-- The clock stands still, then goes back; in the last step one counter starts over. What was counted
while no rate was yielded is in none. -/
theorem bytes_counted_once_reset :
    ∃ set : AccumulatorSet Rat, ofView set .network = .ok ⟨.network, none⟩ ∧
      let steady : List VolumeSnapshot := [⟨⟨100, 500⟩, 1000⟩, ⟨⟨1100, 700⟩, 2000⟩]
      let uneven : List VolumeSnapshot := [⟨⟨1600, 800⟩, 2000⟩, ⟨⟨1700, 900⟩, 1500⟩]
      let last : VolumeSnapshot := ⟨⟨200, 1000⟩, 3000⟩
      let measured (readings : List VolumeSnapshot) (direction : Direction) :=
        direction.measured readings (results (⟨.network, none⟩, set) readings)
      measured steady .upload = 1000 ∧
        measured (steady ++ uneven ++ [last]) .upload = 1000 ∧
        measured (steady ++ uneven ++ [last]) .download = 300 ∧
        ∃ sample, result (advanceAll (⟨.network, none⟩, set) (steady ++ uneven)) last =
            .ok (some sample) ∧
          sample.rate.upload = 0 ∧ sample.rate.download = 200 / 3 := by
  have hfits : ∀ axis, 1 ≤ HistorySizes.along ⟨3, 3⟩ axis := by
    intro axis
    cases axis <;> decide
  obtain ⟨set, -, hshows⟩ := AccumulatorSet.exists_ofDescriptors (α := Rat) Nat.one_pos hfits
  have hreaches : Reaches .network set := by
    intro direction
    cases direction with
    | upload => exact ⟨_, hshows.lookup rfl rfl⟩
    | download => exact ⟨_, hshows.lookup rfl rfl⟩
  have hmeter : ofView set .network = .ok ⟨.network, none⟩ := ofView_eq_ok_iff.2 ⟨rfl, hreaches⟩
  refine ⟨set, hmeter, ?_⟩
  intro steady uneven last measured
  obtain ⟨-, hsteady⟩ := bytes_counted_once .network steady (by decide)
  obtain ⟨hticks, hwhole⟩ := bytes_counted_once .network (steady ++ uneven ++ [last]) (by decide)
  have hwhole := hwhole set ⟨.network, none⟩ hmeter
  obtain ⟨sample?, after, hresult, -, haccounts⟩ :=
    hticks Rat set ⟨.network, none⟩ hmeter (steady ++ uneven) last [] rfl
  have hsome := haccounts.yields.2 ⟨⟨⟨1700, 900⟩, 1500⟩, rfl, by decide⟩
  obtain ⟨sample, rfl⟩ := Option.isSome_iff_exists.1 hsome
  have hrate := haccounts.rates sample rfl _ rfl
  refine ⟨?_, (hwhole .upload).1.trans (by decide +kernel),
    (hwhole .download).1.trans (by decide +kernel), sample, hresult, ?_, ?_⟩
  · exact ((hsteady set ⟨.network, none⟩ hmeter .upload).2 (by decide) _ rfl _ rfl).trans
      (by decide +kernel)
  · exact (hrate .upload).trans (by decide +kernel)
  · exact (hrate .download).trans (by decide +kernel)

end RateMeter

end NodeTelemetry
