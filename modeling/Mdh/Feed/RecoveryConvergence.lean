import Mathlib.Data.List.Perm.Subperm
import Mdh.Feed.SnapshotRecovery

/-! Recovery from a gap. The subscriber loads a snapshot of the full feed, which may already
contain the events it goes on with, and applies them again. -/

namespace Mdh.Feed
open Mdh.Core Mdh.Lib

/-- Numbered from one, every field within its type, and applied to empty books without an error. -/
structure CleanFeed (feed : List WireEvent) : Prop where
  numbered : ∀ index (inside : index < feed.length), (feed.get ⟨index, inside⟩).sequenceNumber = index + 1
  representable : ∀ event ∈ feed, event.Representable
  clean : (applyAll feed {} {}).2.bookErrors = 0

/-- The books of the full feed after its event number `count`. -/
def booksAfter (feed : List WireEvent) (count : Nat) : BookManager := (applyAll (feed.take count) {} {}).1

def cellsAfter (feed : List WireEvent) (count : Nat) (id : InstrumentId) (orderId : Nat) : OrderCell :=
  CellEffect.applyAll (effectsOn id orderId (feed.take count)) none

theorem WireEvent.Representable.number_lt {event : WireEvent} (fits : event.Representable) :
    event.sequenceNumber < 2 ^ 64 := by
  cases event <;> exact fits.1

section Feed
variable {feed : List WireEvent} {g saved n : Nat}

theorem booksAfter_holds (feed : List WireEvent) (count : Nat) : (booksAfter feed count).Holds (cellsAfter feed count) :=
  BookManager.Holds.applyAll start_holds (feed.take count) {}

theorem cellsAfter_wellformed (clean : CleanFeed feed) (count : Nat) (id : InstrumentId) (orderId : Nat) :
    Wellformed id orderId (cellsAfter feed count id orderId) :=
  effectsOn_wellformed (fun event among => clean.representable event (List.mem_of_mem_take among)) nofun

theorem saved_lt (clean : CleanFeed feed) (inside : saved ≤ feed.length) : saved < 2 ^ 64 := by
  rcases Nat.eq_zero_or_pos saved with rfl | positive
  · decide
  · have within : saved - 1 < feed.length := by omega
    have number := clean.numbered (saved - 1) within
    have fits := (clean.representable _ (List.get_mem feed ⟨saved - 1, within⟩)).number_lt
    omega

/-- The order an event adds. -/
def addedKey : WireEvent → Option (InstrumentId × Nat)
  | .addOrder add => some add.key
  | _ => none

/-- A snapshot has no more orders than the feed had events. -/
theorem snapshotOrders_length (feed : List WireEvent) (sequenceNumber count : Nat) :
    (snapshotOrders sequenceNumber (booksAfter feed count)).length ≤ (feed.take count).length := by
  have holds := booksAfter_holds feed count
  have distinct := snapshotOrders_nodup holds sequenceNumber
  have among : (snapshotOrders sequenceNumber (booksAfter feed count)).map AddOrder.key ⊆
      (feed.take count).filterMap addedKey := by
    intro key inside
    obtain ⟨add, listed, rfl⟩ := List.mem_map.mp inside
    obtain ⟨_, _, held⟩ := (mem_snapshotOrders holds).mp listed
    have full : CellEffect.applyAll (effectsOn add.instrumentId add.orderId (feed.take count)) none ≠ none := by
      show cellsAfter feed count add.instrumentId add.orderId ≠ none
      rw [held]
      nofun
    rcases effectsOn_filled full with absent | ⟨other, sent, same⟩
    · exact absurd rfl absent
    · exact List.mem_filterMap.mpr ⟨.addOrder other, sent, congrArg some same⟩
  have bound := (List.Nodup.subperm distinct among).length_le
  rw [List.length_map] at bound
  exact bound.trans (List.length_filterMap_le _ _)

/-- The snapshot of the full feed is read back as what it was written from. -/
theorem readSnapshot_booksAfter (clean : CleanFeed feed) (inside : saved ≤ feed.length) :
    ∃ loaded, readSnapshot (writeSnapshot saved (booksAfter feed saved)) = some { sequenceNumber := saved, books := loaded } ∧
      loaded.Holds (cellsAfter feed saved) := by
  have number := saved_lt clean inside
  have few := snapshotOrders_length feed saved saved
  rw [List.length_take] at few
  exact readSnapshot_write (booksAfter_holds feed saved) (cellsAfter_wellformed clean saved) number (by omega)

/-- The effects of the first `count` events, in two stretches. -/
theorem effectsOn_take (feed : List WireEvent) {front count : Nat} (order : front ≤ count) (id : InstrumentId)
    (orderId : Nat) : effectsOn id orderId (feed.take count) =
      effectsOn id orderId (feed.take front) ++ effectsOn id orderId ((feed.take count).drop front) := by
  have split := List.take_append_drop front (feed.take count)
  rw [List.take_take, min_eq_left order] at split
  unfold effectsOn
  rw [← List.map_append, split]

/-- Going over the events after `done` once more leads from the cells at `saved` to those at `n`. -/
theorem cells_reapplied (clean : CleanFeed feed) {done : Nat} (reach : done ≤ saved) (later : saved ≤ n)
    (inside : saved ≤ feed.length) (id : InstrumentId) (orderId : Nat) :
    CellEffect.applyAll (effectsOn id orderId ((feed.take n).drop done)) (cellsAfter feed saved id orderId) =
      cellsAfter feed n id orderId := by
  have fits := BookManager.Holds.fitAll start_holds feed {} clean.clean id orderId
  rw [← List.take_length (l := feed), effectsOn_take feed inside, CellEffect.fitAll_append,
    effectsOn_take feed reach, CellEffect.fitAll_append] at fits
  have overlap : CellEffect.applyAll (effectsOn id orderId ((feed.take saved).drop done)) (cellsAfter feed saved id orderId) =
      cellsAfter feed saved id orderId := by
    unfold cellsAfter
    rw [effectsOn_take feed reach, CellEffect.applyAll_append]
    exact CellEffect.reapply fits.1.2
  have split : effectsOn id orderId ((feed.take n).drop done) =
      effectsOn id orderId ((feed.take saved).drop done) ++ effectsOn id orderId ((feed.take n).drop saved) := by
    have whole := List.take_append_drop saved (feed.take n)
    rw [List.take_take, min_eq_left later] at whole
    have short : done ≤ (feed.take saved).length := by
      rw [List.length_take]
      omega
    unfold effectsOn
    rw [← List.map_append, ← List.drop_append_of_le_length short, whole]
  rw [split, CellEffect.applyAll_append, overlap, cellsAfter, cellsAfter, effectsOn_take feed later,
    CellEffect.applyAll_append]

end Feed

section Frames
variable {options : ReplayOptions} {arrival : Arrival} {replay : Replay} {event : WireEvent}

theorem apply_books (outcome : ReplayOutcome) (event : WireEvent) :
    (outcome.apply event).books = (applyEvent event outcome.books {}).1 :=
  applyEvent_books event outcome.books outcome.stats.toReplayStats {}

/-- The next number in turn is applied whatever the options are. -/
theorem applyFrameResult_inOrder (options : ReplayOptions) (frame : arrival.frame = .ok event) {last : Nat}
    (seen : replay.validator.lastSeen = some last) (number : event.sequenceNumber = last + 1)
    (fits : event.sequenceNumber < 2 ^ 64) :
    (applyFrameResult options arrival replay).1 =
      { validator := { lastSeen := some event.sequenceNumber }, outcome := replay.outcome.apply event } := by
  have next : event.sequenceNumber = (last + 1) % 2 ^ 64 := by omega
  have checked : replay.validator.check64 event.sequenceNumber =
      ({ lastSeen := some event.sequenceNumber }, { outcome := .inOrder, observed := event.sequenceNumber }) := by
    unfold SequenceValidator.check64
    rw [seen]
    exact if_pos next
  unfold applyFrameResult
  rw [frame]
  dsimp only
  rw [checked, if_pos rfl]

/-- A gap with a snapshot at hand: its books take the place of the ones there were. -/
theorem applyFrameResult_gap (replay : Replay) (frame : arrival.frame = .ok event)
    (gap : (replay.validator.check64 event.sequenceNumber).2.outcome = .missing) {path : String}
    (configured : options.recoverySnapshotPath = some path) {file : List UInt8} (here : arrival.files path = some file)
    {loaded : SnapshotLoadResult} (read : readSnapshot file = some loaded) :
    (applyFrameResult options arrival replay).1.validator.lastSeen = some event.sequenceNumber ∧
      (applyFrameResult options arrival replay).1.outcome.books = (applyEvent event loaded.books {}).1 := by
  unfold applyFrameResult
  rw [frame]
  dsimp only
  rw [gap, configured, if_neg nofun]
  dsimp only
  rw [here, Option.bind_some, read]
  exact ⟨rfl, apply_books _ _⟩

/-- Frames in turn are applied one after the other. -/
theorem frames_inOrder (events : List WireEvent) (arrivals : List Arrival)
    (frames : arrivals.map Arrival.frame = events.map .ok) {last : Nat} (seen : replay.validator.lastSeen = some last)
    (numbered : ∀ index (inside : index < events.length), (events.get ⟨index, inside⟩).sequenceNumber = last + 1 + index)
    (fits : ∀ event ∈ events, event.sequenceNumber < 2 ^ 64) :
    (arrivals.foldl (fun replay arrival => (applyFrameResult options arrival replay).1) replay).outcome.books =
      (applyAll events replay.outcome.books {}).1 := by
  induction events generalizing arrivals replay last with
  | nil =>
    rw [List.map_eq_nil_iff.mp frames]
    rfl
  | cons event rest ih =>
    obtain ⟨arrival, others, rfl, frame, later⟩ := List.map_eq_cons_iff.mp frames
    have number : event.sequenceNumber = last + 1 := numbered 0 (Nat.zero_lt_succ _)
    have applied := applyFrameResult_inOrder options frame seen number (fits event List.mem_cons_self)
    rw [List.foldl_cons, applied, @ih _ others later event.sequenceNumber rfl (fun index inside => ?_)
      (fun other among => fits other (List.mem_cons_of_mem _ among)), apply_books, applyAll_cons]
    · exact applyAll_books _ _ _ _
    · have here := numbered (index + 1) (Nat.succ_lt_succ inside)
      rw [number]
      refine Eq.trans ?_ (here.trans (by omega))
      rfl

end Frames

section Recovery
variable {feed : List WireEvent} {g saved n : Nat} {options : ReplayOptions} {path : String} {subscriber : Replay}
  {arrivals : List Arrival}

/-- A subscriber in any state that meets a gap at event `g` and loads a snapshot taken after
event `saved` shows the same orders as the full feed from then on. -/
theorem snapshot_recovery_converges (clean : CleanFeed feed) (reach : g ≤ saved + 1) (later : saved ≤ n)
    (revealed : g ≤ n) (inside : n ≤ feed.length) (configured : options.recoverySnapshotPath = some path)
    (gap : (subscriber.validator.check64 g).2.outcome = .missing)
    (frames : arrivals.map Arrival.frame = ((feed.take n).drop (g - 1)).map .ok)
    (file : ∀ first ∈ arrivals.head?, first.files path = some (writeSnapshot saved (booksAfter feed saved))) :
    let recovered := arrivals.foldl (fun replay arrival => (applyFrameResult options arrival replay).1) subscriber
    ∀ id side view, view ∈ (recovered.outcome.books.bookFor id).allOn side ↔
      view ∈ ((booksAfter feed n).bookFor id).allOn side := by
  have positive : 0 < g := by
    by_contra zero
    have none : g = 0 := by omega
    unfold SequenceValidator.check64 at gap
    rw [none] at gap
    cases seen : subscriber.validator.lastSeen with
    | none =>
      rw [seen] at gap
      cases gap
    | some last =>
      rw [seen] at gap
      dsimp only at gap
      split_ifs at gap with next same below
      omega
  obtain ⟨loaded, read, holds⟩ := readSnapshot_booksAfter clean (show saved ≤ feed.length by omega)
  have within : g - 1 < feed.length := by omega
  have split : (feed.take n).drop (g - 1) = feed.get ⟨g - 1, within⟩ :: (feed.take n).drop g := by
    rw [List.drop_eq_getElem_cons (by rw [List.length_take]; omega), List.getElem_take, Nat.sub_add_cancel positive]
    rfl
  intro recovered id side view
  have level : recovered.outcome.books = (applyAll ((feed.take n).drop (g - 1)) loaded {}).1 := by
    rw [split] at frames ⊢
    obtain ⟨first, others, rfl, frame, rest⟩ := List.map_eq_cons_iff.mp frames
    have number : (feed.get ⟨g - 1, within⟩).sequenceNumber = g := (clean.numbered (g - 1) within).trans (by omega)
    obtain ⟨seen, books⟩ := applyFrameResult_gap subscriber frame (number.symm ▸ gap) configured (file first rfl) read
    have turn : ∀ index (inside : index < ((feed.take n).drop g).length),
        (((feed.take n).drop g).get ⟨index, inside⟩).sequenceNumber = g + 1 + index := by
      intro index among
      rw [List.length_drop, List.length_take] at among
      have here := clean.numbered (g + index) (by omega)
      simp only [List.get_eq_getElem, List.getElem_drop, List.getElem_take] at here ⊢
      omega
    have fits : ∀ event ∈ (feed.take n).drop g, event.sequenceNumber < 2 ^ 64 := fun event among =>
      (clean.representable event (List.mem_of_mem_take (List.mem_of_mem_drop among))).number_lt
    rw [number] at seen
    exact (frames_inOrder _ others rest seen turn fits).trans (by rw [books]; exact applyAll_books _ _ _ _)
  have reached : recovered.outcome.books.Holds (cellsAfter feed n) := by
    have applied := holds.applyAll ((feed.take n).drop (g - 1)) {}
    rw [level]
    intro id
    have same : (fun orderId => CellEffect.applyAll (effectsOn id orderId ((feed.take n).drop (g - 1)))
        (cellsAfter feed saved id orderId)) = cellsAfter feed n id := by
      funext orderId
      exact cells_reapplied clean (by omega) later (by omega) id orderId
    exact same ▸ applied id
  rw [(reached id).mem_allOn, (booksAfter_holds feed n id).mem_allOn]

end Recovery

/-- Four events: the order on the first instrument is added, modified, cancelled, and its id is
used again on the other side. -/
def reusedIdFeed : List WireEvent := [
  .addOrder { sequenceNumber := 1, timestamp := 0, orderId := 5, instrumentId := 1, price := 50, quantity := 10, side := .buy },
  .modifyOrder { sequenceNumber := 2, timestamp := 0, orderId := 5, instrumentId := 1, newPrice := 51, newQuantity := 4 },
  .cancelOrder { sequenceNumber := 3, timestamp := 0, orderId := 5, instrumentId := 1 },
  .addOrder { sequenceNumber := 4, timestamp := 0, orderId := 5, instrumentId := 1, price := 60, quantity := 7, side := .sell }]

/-- A subscriber that has seen nothing but event 0 goes on with event 2 and a snapshot that
already has all four. -/
theorem snapshot_recovery_converges_reused :
    let options : ReplayOptions := { recoverySnapshotPath := some "books" }
    let files (path : String) := if path = "books" then some (writeSnapshot 4 (booksAfter reusedIdFeed 4)) else none
    let arrivals : List Arrival := (reusedIdFeed.drop 1).map fun event => { frame := .ok event, files }
    ((arrivals.foldl (fun replay arrival => (applyFrameResult options arrival replay).1)
      { validator := { lastSeen := some 0 } }).outcome.books.bookFor 1).allOn .sell = [⟨5, 60, 7⟩] ∧
    ∀ id side view, view ∈ ((arrivals.foldl (fun replay arrival => (applyFrameResult options arrival replay).1)
        { validator := { lastSeen := some 0 } }).outcome.books.bookFor id).allOn side ↔
      view ∈ ((booksAfter reusedIdFeed 4).bookFor id).allOn side := by
  have clean : CleanFeed reusedIdFeed := by
    refine ⟨fun index inside => ?_, by decide +kernel, by decide +kernel⟩
    have every : ∀ index : Fin reusedIdFeed.length, (reusedIdFeed.get index).sequenceNumber = index.val + 1 := by
      decide +kernel
    exact every ⟨index, inside⟩
  intro options files arrivals
  refine ⟨by decide +kernel, ?_⟩
  have reach : 2 ≤ 4 + 1 := by decide
  have configured : options.recoverySnapshotPath = some "books" := rfl
  exact snapshot_recovery_converges clean reach (le_refl 4) (by decide) (by decide) configured (by decide +kernel) rfl (by rintro _ ⟨⟩; rfl)

end Mdh.Feed
