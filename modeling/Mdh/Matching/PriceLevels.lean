import Mdh.Matching.OccupancyBitmap

/-! A side's price index as a partial map from prices to levels: what each
operation does to that map, whatever the band and wherever it is anchored. -/

namespace Mdh.Matching.SideIndex
open Mdh.Core Mdh.Lib Mdh.Lib.WordBits

/-- The level at a price, through whichever of the two indexes holds it. -/
def level? (index : SideIndex) (price : Int) : Option LevelSlot :=
  (index.findLevel price).map index.read

structure WellFormed (index : SideIndex) : Prop where
  exact : index.BitmapExact
  sized : index.ladder.isSome → index.BitmapSized
  allocated : index.anchored = true → index.ladder.isSome
  unanchored : index.anchored = false → index.summary = 0#64
  unanchoredVacant : index.bandTicks ≠ 0 → index.anchored = false →
    ∀ price, index.overflow.find? price = none
  written : ∀ tick, index.Occupied tick → (index.ladder.bind (· tick)).isSome
  spilledOutside : ∀ price, (index.overflow.find? price).isSome → index.inBand price = false

theorem inBand_iff (index : SideIndex) (price : Int) :
    index.inBand price = true ↔
      index.anchored = true ∧ index.base ≤ price ∧ price < index.base + index.bandTicks := by
  simp only [inBand, Bool.and_eq_true, decide_eq_true_eq]
  constructor
  · rintro ⟨anchored, low, high⟩
    exact ⟨anchored, by omega, by omega⟩
  · rintro ⟨anchored, low, high⟩
    exact ⟨anchored, by omega, by omega⟩

theorem tickOf_lt {index : SideIndex} {price : Int} (inBand : index.inBand price = true) :
    index.tickOf price < index.bandTicks := by
  obtain ⟨_, low, high⟩ := (index.inBand_iff price).mp inBand
  unfold tickOf
  omega

theorem priceOf_tickOf {index : SideIndex} {price : Int} (inBand : index.inBand price = true) :
    index.priceOf (index.tickOf price) = price := by
  obtain ⟨_, low, _⟩ := (index.inBand_iff price).mp inBand
  unfold priceOf tickOf
  omega

theorem tickOf_priceOf (index : SideIndex) (tick : Nat) : index.tickOf (index.priceOf tick) = tick := by
  unfold priceOf tickOf
  omega

theorem inBand_priceOf {index : SideIndex} {tick : Nat} (anchored : index.anchored = true)
    (inside : tick < index.bandTicks) : index.inBand (index.priceOf tick) = true := by
  rw [inBand_iff]
  unfold priceOf
  exact ⟨anchored, by omega, by omega⟩

theorem WellFormed.anchored_of_occupied {index : SideIndex} (wf : index.WellFormed) {tick : Nat}
    (occupied : index.Occupied tick) : index.anchored = true := by
  by_contra notAnchored
  exact wf.exact.none_occupied (wf.unanchored (Bool.eq_false_iff.mpr notAnchored)) tick occupied

theorem WellFormed.sized_of_inBand {index : SideIndex} (wf : index.WellFormed) {price : Int}
    (inBand : index.inBand price = true) : index.BitmapSized :=
  wf.sized (wf.allocated ((index.inBand_iff price).mp inBand).1)

section Lookup
variable {index : SideIndex} {price : Int}

theorem findLevel_inBand (inBand : index.inBand price = true) (ref : LevelRef) :
    index.findLevel price = some ref ↔
      index.Occupied (index.tickOf price) ∧ ref = .laddered (index.tickOf price) := by
  simp only [findLevel, if_pos inBand]
  by_cases occupied : index.isOccupied (index.tickOf price) = true
  · simp only [if_pos occupied, Option.some.injEq, (index.isOccupied_iff _).mp occupied, true_and]
    exact eq_comm
  · simp only [if_neg occupied, reduceCtorEq, false_iff]
    exact fun both => occupied ((index.isOccupied_iff _).mpr both.1)

theorem findLevel_outside (outside : index.inBand price = false) (ref : LevelRef) :
    index.findLevel price = some ref ↔
      (index.overflow.find? price).isSome ∧ ref = .spilled price := by
  simp only [findLevel, outside, Bool.false_eq_true, if_false]
  cases index.overflow.find? price <;> simp [eq_comm]

theorem level?_inBand (inBand : index.inBand price = true) :
    index.level? price =
      if index.isOccupied (index.tickOf price) then some (index.read (.laddered (index.tickOf price)))
      else none := by
  simp only [level?, findLevel, if_pos inBand]
  split_ifs <;> rfl

theorem level?_outside (outside : index.inBand price = false) :
    index.level? price = index.overflow.find? price := by
  simp only [level?, findLevel, outside, Bool.false_eq_true, if_false]
  cases found : index.overflow.find? price <;> simp [read, found]

theorem level?_isSome_inBand (inBand : index.inBand price = true) :
    (index.level? price).isSome ↔ index.Occupied (index.tickOf price) := by
  rw [level?_inBand inBand, ← isOccupied_iff]
  split_ifs with occupied <;> simp [occupied]

/-- A level rests at a price exactly when its tick is occupied or the overflow map
has the price. -/
theorem WellFormed.level?_isSome_iff (wf : index.WellFormed) :
    (index.level? price).isSome ↔
      index.inBand price = true ∧ index.Occupied (index.tickOf price) ∨
        (index.overflow.find? price).isSome := by
  cases inside : index.inBand price with
  | true =>
    have notSpilled : ¬ (index.overflow.find? price).isSome := fun spilled => by
      simp [wf.spilledOutside price spilled] at inside
    simp [level?_isSome_inBand inside, notSpilled]
  | false => simp [level?_outside inside]

theorem levelAt_eq {ref : LevelRef} (found : index.findLevel price = some ref) :
    index.levelAt price = ref := by
  cases inside : index.inBand price with
  | true =>
    rw [((findLevel_inBand inside ref).mp found).2]
    simp [levelAt, inside]
  | false =>
    rw [((findLevel_outside inside ref).mp found).2]
    simp [levelAt, inside]

theorem WellFormed.level?_priceOf (wf : index.WellFormed) {tick : Nat} (occupied : index.Occupied tick) :
    (index.level? (index.priceOf tick)).isSome := by
  have inside := inBand_priceOf (wf.anchored_of_occupied occupied) (wf.exact.inside tick occupied)
  rw [level?_isSome_inBand inside, tickOf_priceOf]
  exact occupied

theorem WellFormed.empty_iff (wf : index.WellFormed) :
    index.empty = true ↔ ∀ price, index.level? price = none := by
  simp only [empty, Bool.and_eq_true, beq_iff_eq]
  constructor
  · rintro ⟨zero, noSpill⟩ price
    by_contra present
    rcases wf.level?_isSome_iff.mp (Option.isSome_iff_ne_none.mpr present) with ⟨_, occupied⟩ | spilled
    · exact wf.exact.none_occupied zero _ occupied
    · simp [(index.overflow.isEmpty_iff).mp noSpill price] at spilled
  · intro vacant
    constructor
    · by_contra nonzero
      obtain ⟨tick, occupied⟩ := wf.exact.occupied_of_summary.mp nonzero
      have present := wf.level?_priceOf occupied
      simp [vacant] at present
    · rw [SortedMap.isEmpty_iff]
      intro price
      by_contra present
      have level := wf.level?_isSome_iff.mpr (Or.inr (Option.isSome_iff_ne_none.mpr present))
      simp [vacant] at level

end Lookup

theorem make_wellFormed (side : Side) {bandTicks : Nat} (fits : bandTicks ≤ 64 ^ 3) :
    (make side bandTicks).WellFormed where
  exact := {
    fits := fits
    midIndexed := fun word => by simp [make, rowBit]
    summaryIndexed := fun mid => by simp [make]
    inside := fun tick occupied => by simp [make, Occupied, rowBit] at occupied }
  sized := fun allocated => by simp [make] at allocated
  allocated := fun anchored => by simp [make] at anchored
  unanchored := fun _ => rfl
  unanchoredVacant := fun _ _ _ => rfl
  written := fun tick occupied => by simp [make, Occupied, rowBit] at occupied
  spilledOutside := fun price spilled => by simp [make] at spilled

theorem make_level? (side : Side) (bandTicks : Nat) (price : Int) :
    (make side bandTicks).level? price = none := rfl

section Anchor
variable {index : SideIndex} {price : Int}

/-- Anchoring an empty side moves its band and keeps it empty. -/
theorem anchor_wellFormed (wf : index.WellFormed) (vacant : index.empty = true) :
    (index.anchor price).WellFormed := by
  simp only [empty, Bool.and_eq_true, beq_iff_eq] at vacant
  have noTick : ∀ tick, ¬ index.Occupied tick := wf.exact.none_occupied vacant.1
  have noSpill : ∀ price, index.overflow.find? price = none := (index.overflow.isEmpty_iff).mp vacant.2
  unfold anchor
  cases allocation : index.ladder with
  | some cells =>
    exact {
      exact := ⟨wf.exact.fits, wf.exact.midIndexed, wf.exact.summaryIndexed, wf.exact.inside⟩
      sized := fun _ => ⟨(wf.sized (by simp [allocation])).occupancy, (wf.sized (by simp [allocation])).midSummary⟩
      allocated := fun _ => rfl
      unanchored := fun _ => vacant.1
      unanchoredVacant := fun _ _ => noSpill
      written := fun tick occupied => absurd occupied (noTick tick)
      spilledOutside := fun price spilled => by simp [noSpill] at spilled }
  | none =>
    have clear : ∀ (length word : Nat), (List.replicate length 0#64).getD word 0#64 = 0#64 := by
      intro length word
      rw [List.getD_eq_getElem?_getD, List.getElem?_replicate]
      split_ifs <;> rfl
    exact {
      exact := ⟨wf.exact.fits,
        fun word => by
          change (_ : Word).getLsbD _ = true ↔ (List.replicate _ _).getD _ _ ≠ _
          rw [clear, clear]
          simp,
        fun mid => by
          change index.summary.getLsbD mid = true ↔ (List.replicate _ _).getD _ _ ≠ _
          rw [vacant.1, clear]
          simp,
        fun tick occupied => by
          change (_ : Word).getLsbD _ = true at occupied
          rw [clear] at occupied
          simp at occupied⟩
      sized := fun _ => ⟨List.length_replicate, List.length_replicate⟩
      allocated := fun _ => rfl
      unanchored := fun _ => vacant.1
      unanchoredVacant := fun _ _ => noSpill
      written := fun tick occupied => by
        change (_ : Word).getLsbD _ = true at occupied
        rw [clear] at occupied
        simp at occupied
      spilledOutside := fun price spilled => by simp [noSpill] at spilled }

theorem anchor_side (index : SideIndex) (price : Int) : (index.anchor price).side = index.side := by
  unfold anchor
  split <;> rfl

theorem anchor_anchored (index : SideIndex) (price : Int) : (index.anchor price).anchored = true := by
  unfold anchor
  split <;> rfl

theorem anchor_empty (index : SideIndex) (price : Int) :
    (index.anchor price).empty = index.empty := by
  unfold anchor empty
  split <;> rfl

end Anchor

section Overflow
variable {index : SideIndex} {map : SortedMap Int LevelSlot}

theorem withOverflow_level? (index : SideIndex) (map : SortedMap Int LevelSlot) (price : Int) :
    ({ index with overflow := map } : SideIndex).level? price =
      if index.inBand price = true then index.level? price else map.find? price := by
  cases inside : index.inBand price with
  | true =>
    rw [if_pos rfl, level?_inBand inside]
    exact @level?_inBand { index with overflow := map } _ inside
  | false =>
    rw [if_neg (by simp)]
    exact @level?_outside { index with overflow := map } _ inside

theorem withOverflow_wellFormed (wf : index.WellFormed)
    (outside : ∀ price, (map.find? price).isSome → index.inBand price = false)
    (vacant : index.bandTicks ≠ 0 → index.anchored = false → ∀ price, map.find? price = none) :
    ({ index with overflow := map } : SideIndex).WellFormed where
  exact := ⟨wf.exact.fits, wf.exact.midIndexed, wf.exact.summaryIndexed, wf.exact.inside⟩
  sized := fun allocated => ⟨(wf.sized allocated).occupancy, (wf.sized allocated).midSummary⟩
  allocated := wf.allocated
  unanchored := wf.unanchored
  unanchoredVacant := vacant
  written := wf.written
  spilledOutside := outside

/-- Storing a level outside the band, on a side that is anchored if it can be. -/
theorem insertSpilled_spec (wf : index.WellFormed) {price : Int} (outside : index.inBand price = false)
    (settled : index.bandTicks ≠ 0 → index.anchored = true) (level : LevelSlot) :
    ({ index with overflow := index.overflow.insert price level } : SideIndex).WellFormed ∧
      ∀ other, ({ index with overflow := index.overflow.insert price level } : SideIndex).level? other =
        if other = price then some level else index.level? other := by
  refine ⟨withOverflow_wellFormed wf (fun other there => ?_) (fun wide notAnchored => ?_), fun other => ?_⟩
  · rw [SortedMap.find?_insert] at there
    split_ifs at there with same
    · exact same ▸ outside
    · exact wf.spilledOutside other there
  · simp [settled wide] at notAnchored
  · rw [withOverflow_level?, SortedMap.find?_insert]
    cases inside : index.inBand other with
    | true =>
      have different : other ≠ price := fun same => by simp [same, outside] at inside
      simp [different]
    | false => simp [level?_outside inside]

theorem eraseSpilled_spec (wf : index.WellFormed) {price : Int} (outside : index.inBand price = false) :
    ({ index with overflow := index.overflow.erase price } : SideIndex).WellFormed ∧
      ∀ other, ({ index with overflow := index.overflow.erase price } : SideIndex).level? other =
        if other = price then none else index.level? other := by
  refine ⟨withOverflow_wellFormed wf (fun other there => ?_) (fun wide notAnchored other => ?_),
    fun other => ?_⟩
  · rw [SortedMap.find?_erase] at there
    split_ifs at there with same
    · simp at there
    · exact wf.spilledOutside other there
  · rw [SortedMap.find?_erase, wf.unanchoredVacant wide notAnchored, ite_self]
  · rw [withOverflow_level?, SortedMap.find?_erase]
    cases inside : index.inBand other with
    | true =>
      have different : other ≠ price := fun same => by simp [same, outside] at inside
      simp [different]
    | false => simp [level?_outside inside]

end Overflow

section Write
variable {index : SideIndex} {price : Int} {ref : LevelRef}

@[simp] theorem write_inBand (index : SideIndex) (ref : LevelRef) (level : LevelSlot) (price : Int) :
    (index.write ref level).inBand price = index.inBand price := by
  cases ref <;> rfl

@[simp] theorem write_tickOf (index : SideIndex) (ref : LevelRef) (level : LevelSlot) (price : Int) :
    (index.write ref level).tickOf price = index.tickOf price := by
  cases ref <;> rfl

@[simp] theorem write_isOccupied (index : SideIndex) (ref : LevelRef) (level : LevelSlot) (tick : Nat) :
    (index.write ref level).isOccupied tick = index.isOccupied tick := by
  cases ref <;> rfl

@[simp] theorem write_side (index : SideIndex) (ref : LevelRef) (level : LevelSlot) :
    (index.write ref level).side = index.side := by
  cases ref <;> rfl

theorem read_write_laddered {index : SideIndex} (allocated : index.ladder.isSome) (tick other : Nat)
    (level : LevelSlot) :
    (index.write (.laddered tick) level).read (.laddered other) =
      if other = tick then level else index.read (.laddered other) := by
  obtain ⟨cells, ladder⟩ := Option.isSome_iff_exists.mp allocated
  simp only [write, read, ladder, Option.map_some, Option.bind_some, Function.update_apply]
  split_ifs <;> rfl

theorem write_laddered_wellFormed (wf : index.WellFormed) (tick : Nat) (level : LevelSlot) :
    (index.write (.laddered tick) level).WellFormed where
  exact := ⟨wf.exact.fits, wf.exact.midIndexed, wf.exact.summaryIndexed, wf.exact.inside⟩
  sized := fun allocated => by
    have sized := wf.sized (by simpa [write] using allocated)
    exact ⟨sized.occupancy, sized.midSummary⟩
  allocated := fun anchored => by simpa [write] using wf.allocated anchored
  unanchored := wf.unanchored
  unanchoredVacant := wf.unanchoredVacant
  written := fun other occupied => by
    have before := wf.written other occupied
    simp only [write]
    cases cells : index.ladder with
    | none => simp [cells] at before
    | some cells' =>
      simp only [cells, Option.bind_some] at before
      simp only [Option.map_some, Option.bind_some, Function.update_apply]
      split_ifs
      · rfl
      · exact before
  spilledOutside := wf.spilledOutside

/-- Writing through the reference a lookup returned changes that level alone. -/
theorem write_spec (wf : index.WellFormed) (found : index.findLevel price = some ref) (level : LevelSlot) :
    (index.write ref level).WellFormed ∧
      (index.write ref level).findLevel price = some ref ∧
      ∀ other, (index.write ref level).level? other =
        if other = price then some level else index.level? other := by
  cases inside : index.inBand price with
  | true =>
    obtain ⟨occupied, rfl⟩ := (findLevel_inBand inside ref).mp found
    have allocated := wf.allocated ((index.inBand_iff price).mp inside).1
    refine ⟨write_laddered_wellFormed wf _ _, ?_, fun other => ?_⟩
    · rw [findLevel_inBand (by simpa using inside)]
      exact ⟨occupied, rfl⟩
    · cases otherInside : index.inBand other with
      | false =>
        have different : other ≠ price := fun same => by simp [same, inside] at otherInside
        rw [if_neg different, level?_outside otherInside, level?_outside (by simpa using otherInside)]
        rfl
      | true =>
        rw [level?_inBand otherInside, level?_inBand (by simpa using otherInside), write_isOccupied,
          write_tickOf, read_write_laddered allocated]
        by_cases same : other = price
        · simp [same, (index.isOccupied_iff _).mpr occupied]
        · have ticks : index.tickOf other ≠ index.tickOf price := fun equal => same (by
            rw [← priceOf_tickOf otherInside, equal, priceOf_tickOf inside])
          rw [if_neg same, if_neg ticks]
  | false =>
    obtain ⟨present, rfl⟩ := (findLevel_outside inside ref).mp found
    have settled : index.bandTicks ≠ 0 → index.anchored = true := by
      intro wide
      by_contra notAnchored
      simp [wf.unanchoredVacant wide (Bool.eq_false_iff.mpr notAnchored)] at present
    obtain ⟨wf', levels⟩ := insertSpilled_spec wf inside settled level
    refine ⟨wf', (findLevel_outside (by simpa using inside) _).mpr ⟨?_, rfl⟩, levels⟩
    simp [write, SortedMap.find?_insert]

end Write

section Create
variable {index : SideIndex} {price : Int}

theorem setOccupied_wellFormed (wf : index.WellFormed) (inside : index.inBand price = true) :
    ((index.setOccupied (index.tickOf price)).write (.laddered (index.tickOf price)) {}).WellFormed := by
  have sized := wf.sized_of_inBand inside
  have inBand := tickOf_lt inside
  have exact := setOccupied_exact wf.exact sized inBand
  have allocated := wf.allocated ((index.inBand_iff price).mp inside).1
  obtain ⟨cells, ladder⟩ := Option.isSome_iff_exists.mp allocated
  exact {
    exact := ⟨exact.fits, exact.midIndexed, exact.summaryIndexed, exact.inside⟩
    sized := fun _ => ⟨(setOccupied_sized sized).occupancy, (setOccupied_sized sized).midSummary⟩
    allocated := fun _ => by simpa [write, setOccupied] using allocated
    unanchored := fun notAnchored => by
      have anchored := ((index.inBand_iff price).mp inside).1
      change index.anchored = false at notAnchored
      simp [anchored] at notAnchored
    unanchoredVacant := wf.unanchoredVacant
    written := fun tick occupied => by
      rcases (occupied_setOccupied sized inBand tick).mp occupied with before | rfl
      · have written := wf.written tick before
        simp only [ladder, Option.bind_some] at written
        simp only [write, setOccupied, ladder, Option.map_some, Option.bind_some, Function.update_apply]
        split_ifs
        · rfl
        · exact written
      · simp [write, setOccupied, ladder]
    spilledOutside := wf.spilledOutside }

@[simp] theorem setOccupied_inBand (index : SideIndex) (tick : Nat) (price : Int) :
    (index.setOccupied tick).inBand price = index.inBand price := rfl

@[simp] theorem setOccupied_tickOf (index : SideIndex) (tick : Nat) (price : Int) :
    (index.setOccupied tick).tickOf price = index.tickOf price := rfl

theorem createLevel_laddered (wf : index.WellFormed) (inside : index.inBand price = true)
    (other : Int) :
    ((index.setOccupied (index.tickOf price)).write (.laddered (index.tickOf price)) {}).level? other =
      if other = price then some {} else index.level? other := by
  have marked : ∀ tick, (index.setOccupied (index.tickOf price)).isOccupied tick = true ↔
      index.isOccupied tick = true ∨ tick = index.tickOf price := by
    intro tick
    rw [isOccupied_iff, isOccupied_iff]
    exact occupied_setOccupied (wf.sized_of_inBand inside) (tickOf_lt inside) tick
  cases otherInside : index.inBand other with
  | false =>
    have different : other ≠ price := fun same => by simp [same, inside] at otherInside
    rw [if_neg different, level?_outside otherInside, level?_outside (by simpa using otherInside)]
    rfl
  | true =>
    have allocated : (index.setOccupied (index.tickOf price)).ladder.isSome :=
      wf.allocated ((index.inBand_iff price).mp inside).1
    rw [level?_inBand (by simpa using otherInside), level?_inBand otherInside, write_isOccupied, write_tickOf,
      read_write_laddered allocated, setOccupied_tickOf]
    by_cases same : other = price
    · simp [same, (marked _).mpr (Or.inr rfl)]
    · have ticks : index.tickOf other ≠ index.tickOf price := fun equal => same (by
        rw [← priceOf_tickOf otherInside, equal, priceOf_tickOf inside])
      rw [if_neg same, if_neg ticks]
      simp only [marked, ticks, or_false]
      rfl

theorem createLevel_spec (wf : index.WellFormed) (settled : index.bandTicks ≠ 0 → index.anchored = true)
    (price : Int) :
    (index.createLevel price).1.WellFormed ∧ (index.createLevel price).1.side = index.side ∧
      (index.createLevel price).1.findLevel price = some (index.createLevel price).2 ∧
      ∀ other, (index.createLevel price).1.level? other =
        if other = price then some ((index.level? price).getD {}) else index.level? other := by
  unfold createLevel
  cases inside : index.inBand price with
  | true =>
    simp only [if_true]
    by_cases occupied : index.isOccupied (index.tickOf price) = true
    · simp only [if_pos occupied, level?_inBand inside]
      refine ⟨wf, trivial, ?_, fun other => ?_⟩
      · exact (findLevel_inBand inside _).mpr ⟨(index.isOccupied_iff _).mp occupied, rfl⟩
      · split_ifs with same
        · rw [same, level?_inBand inside, if_pos occupied]
          rfl
        · rfl
    · simp only [if_neg occupied, level?_inBand inside]
      refine ⟨setOccupied_wellFormed wf inside, rfl, ?_, createLevel_laddered wf inside⟩
      rw [findLevel_inBand (by simpa using inside), write_tickOf, setOccupied_tickOf]
      exact ⟨(occupied_setOccupied (wf.sized_of_inBand inside) (tickOf_lt inside) _).mpr (Or.inr rfl), rfl⟩
  | false =>
    simp only [Bool.false_eq_true, if_false, level?_outside inside]
    cases present : index.overflow.find? price with
    | some level =>
      refine ⟨wf, rfl, (findLevel_outside inside _).mpr ⟨by simp [present], rfl⟩, fun other => ?_⟩
      split_ifs with same
      · rw [same, level?_outside inside, present]
        rfl
      · rfl
    | none =>
      obtain ⟨wf', levels⟩ := insertSpilled_spec wf inside settled {}
      refine ⟨wf', rfl, (findLevel_outside (by exact inside) _).mpr ⟨?_, rfl⟩, levels⟩
      simp [SortedMap.find?_insert]

/-- A price gets its level, every other price keeps what it had: re-anchoring only
happens on a side with nothing in it, so it is not observable. -/
theorem levelFor_spec (wf : index.WellFormed) (price : Int) :
    (index.levelFor price).1.WellFormed ∧ (index.levelFor price).1.side = index.side ∧
      (index.levelFor price).1.findLevel price = some (index.levelFor price).2 ∧
      ∀ other, (index.levelFor price).1.level? other =
        if other = price then some ((index.level? price).getD {}) else index.level? other := by
  unfold levelFor
  split
  next moves =>
    have vacant : index.empty = true := by
      rcases moves.2 with notAnchored | vacant
      · simp only [empty, Bool.and_eq_true, beq_iff_eq, SortedMap.isEmpty_iff]
        exact ⟨wf.unanchored notAnchored, wf.unanchoredVacant moves.1 notAnchored⟩
      · exact vacant
    have wf' : (index.anchor price).WellFormed := anchor_wellFormed wf vacant
    have before := wf.empty_iff.mp vacant
    have after := wf'.empty_iff.mp ((anchor_empty index price).trans vacant)
    have spec := createLevel_spec wf' (fun _ => anchor_anchored index price) price
    simpa only [anchor_side, before, after] using spec
  next settled =>
    refine createLevel_spec wf (fun wide => ?_) price
    by_contra notAnchored
    exact settled ⟨wide, Or.inl (Bool.eq_false_iff.mpr notAnchored)⟩

end Create

section Erase
variable {index : SideIndex} {price : Int}

theorem clearOccupied_fields (index : SideIndex) (tick : Nat) :
    (index.clearOccupied tick).side = index.side ∧ (index.clearOccupied tick).base = index.base ∧
      (index.clearOccupied tick).bandTicks = index.bandTicks ∧
      (index.clearOccupied tick).anchored = index.anchored ∧
      (index.clearOccupied tick).ladder = index.ladder ∧
      (index.clearOccupied tick).overflow = index.overflow := by
  simp only [clearOccupied]
  split_ifs <;> exact ⟨rfl, rfl, rfl, rfl, rfl, rfl⟩

theorem eraseLevel_side (index : SideIndex) (price : Int) : (index.eraseLevel price).side = index.side := by
  unfold eraseLevel
  split
  · exact (clearOccupied_fields _ _).1
  · rfl

theorem clearOccupied_inBand (index : SideIndex) (tick : Nat) (price : Int) :
    (index.clearOccupied tick).inBand price = index.inBand price := by
  obtain ⟨_, base, ticks, anchored, _, _⟩ := clearOccupied_fields index tick
  simp only [inBand, base, ticks, anchored]

theorem clearOccupied_tickOf (index : SideIndex) (tick : Nat) (price : Int) :
    (index.clearOccupied tick).tickOf price = index.tickOf price := by
  rw [tickOf, (clearOccupied_fields index tick).2.1, tickOf]

theorem clearOccupied_read (index : SideIndex) (tick : Nat) (ref : LevelRef) :
    (index.clearOccupied tick).read ref = index.read ref := by
  obtain ⟨_, _, _, _, ladder, overflow⟩ := clearOccupied_fields index tick
  cases ref <;> simp only [read, ladder, overflow]

theorem clearOccupied_wellFormed (wf : index.WellFormed) (inside : index.inBand price = true) :
    (index.clearOccupied (index.tickOf price)).WellFormed := by
  obtain ⟨_, _, ticks, anchored, ladder, overflow⟩ := clearOccupied_fields index (index.tickOf price)
  have sized := wf.sized_of_inBand inside
  have occupied := occupied_clearOccupied sized (tickOf_lt inside)
  refine ⟨clearOccupied_exact wf.exact sized (tickOf_lt inside), fun _ => clearOccupied_sized sized,
    ?_, ?_, ?_, ?_, ?_⟩
  · rw [anchored, ladder]
    exact wf.allocated
  · rw [anchored, ((index.inBand_iff price).mp inside).1]
    simp
  · rw [anchored, ticks, overflow]
    exact wf.unanchoredVacant
  · rw [ladder]
    exact fun tick there => wf.written tick ((occupied tick).mp there).1
  · rw [overflow]
    exact fun other there => (clearOccupied_inBand _ _ other).trans (wf.spilledOutside other there)

theorem clearOccupied_level? (wf : index.WellFormed) (inside : index.inBand price = true) (other : Int) :
    (index.clearOccupied (index.tickOf price)).level? other =
      if other = price then none else index.level? other := by
  cases otherInside : index.inBand other with
  | false =>
    have different : other ≠ price := fun same => by simp [same, inside] at otherInside
    rw [if_neg different, level?_outside otherInside,
      level?_outside ((clearOccupied_inBand _ _ other).trans otherInside), (clearOccupied_fields _ _).2.2.2.2.2]
  | true =>
    rw [level?_inBand otherInside, level?_inBand ((clearOccupied_inBand _ _ other).trans otherInside),
      clearOccupied_tickOf, clearOccupied_read]
    have cleared : (index.clearOccupied (index.tickOf price)).isOccupied (index.tickOf other) = true ↔
        index.isOccupied (index.tickOf other) = true ∧ index.tickOf other ≠ index.tickOf price := by
      rw [isOccupied_iff, isOccupied_iff]
      exact occupied_clearOccupied (wf.sized_of_inBand inside) (tickOf_lt inside) _
    by_cases same : other = price
    · rw [if_pos same, if_neg]
      rw [cleared, same]
      simp
    · have ticks : index.tickOf other ≠ index.tickOf price := fun equal => same (by
        rw [← priceOf_tickOf otherInside, equal, priceOf_tickOf inside])
      simp only [if_neg same, cleared, ticks, ne_eq, not_false_eq_true, and_true]

/-- Erasing a level empties that price and no other. -/
theorem eraseLevel_spec (wf : index.WellFormed) (price : Int) :
    (index.eraseLevel price).WellFormed ∧
      ∀ other, (index.eraseLevel price).level? other =
        if other = price then none else index.level? other := by
  unfold eraseLevel
  cases inside : index.inBand price with
  | true => exact ⟨clearOccupied_wellFormed wf inside, clearOccupied_level? wf inside⟩
  | false => exact eraseSpilled_spec wf inside

end Erase

end Mdh.Matching.SideIndex
