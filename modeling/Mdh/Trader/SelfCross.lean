import Mdh.Feed.BookIntegrity
import Mdh.Trader.LadderMarketMaker
import Mdh.Trader.MarketMakerStrategy
import Mdh.Trader.QuoteTending

/-! The quoting strategies and their own orders. What a strategy asks for meets none of its own orders
that still rest, as long as the quotes that are moved first do get out of the way, and the exchange does
with the orders that rest what it is asked. -/

namespace Mdh.Trader
open Mdh.Core Mdh.Lib Mdh.Matching Mdh.Matching.MatchingEngine Mdh.Risk Mdh.Gateway

/-- The side and the price of the order that a request asks for. -/
def sought (client : Client) : ExchangeCommand → Option (Side × Int)
  | .newOrder command => some (command.side, command.price)
  | .cancelOrder _ => none
  -- A replacement is entered on the side of the order it replaces.
  | .replaceOrder command => (client.oms.orders command.newClientOrderId).map fun order => (order.side, command.newPrice)

/-- The account's next request asks for an order at a price that is met by an order of its own, at rest on
the other side. -/
def CrossesOwn (account : AccountId) (floor : TradingFloor) : Prop :=
  ∃ terms ∈ ((floor.clients account).requests.head?.bind toCommand).bind (sought (floor.clients account)),
    ∃ entry ∈ floor.exchange.engine.resting, entry.key.accountId = account ∧ entry.order.side = terms.1.contra ∧
      terms.1.Crosses terms.2 entry.order.price

instance (account : AccountId) (floor : TradingFloor) : Decidable (CrossesOwn account floor) :=
  inferInstanceAs (Decidable (∃ _ ∈ _, ∃ _ ∈ _, _ ∧ _ ∧ _))

section Property
variable {account : AccountId} {client : Client} {engine : MatchingEngine}

/-- The order that a request asks for is entered under the terms it is asked for. -/
theorem Poised.sought_terms (poised : Poised account client engine) (synced : Synced account client engine)
    {command : ExchangeCommand} (sent : command ∈ client.commands) {terms : Side × Int} (asks : sought client command = some terms) :
    ∃ key, created command = some key ∧ client.terms key.clientOrderId = some terms := by
  cases command with
  | newOrder command =>
    obtain ⟨_, order, found, _, _, side, price⟩ := synced.asked _ sent
    refine ⟨_, rfl, (poised.priced.recorded found).trans ?_⟩
    rw [side, price]
    exact asks
  | cancelOrder command => cases asks
  | replaceOrder command =>
    obtain ⟨order, found, rfl⟩ := Option.map_eq_some_iff.mp asks
    refine ⟨_, rfl, (congrArg (Option.map _) found).trans ?_⟩
    exact congrArg (fun price => some (order.side, price)) (poised.priced.requests command sent order found)

theorem Poised.uncrossed {floor : TradingFloor} (poised : Poised account (floor.clients account) floor.exchange.engine)
    (synced : Synced account (floor.clients account) floor.exchange.engine) : ¬ CrossesOwn account floor := by
  rintro ⟨terms, asked, entry, rests, own, opposite, crosses⟩
  obtain ⟨command, next, asks⟩ := Option.bind_eq_some_iff.mp asked
  obtain ⟨request, first, stands⟩ := Option.bind_eq_some_iff.mp next
  obtain ⟨requests, queued⟩ := List.head?_eq_some_iff.mp first
  have all := commands_takes queued stands
  obtain ⟨key, creates, entered⟩ := poised.sought_terms synced (by rw [all]; exact List.mem_cons_self) asks
  have known := poised.priced.resting synced rests own
  rw [opposite] at known
  have safe := poised.safe
  rw [all] at safe
  have here : resting account floor.exchange.engine entry.key.clientOrderId = true :=
    decide_eq_true ⟨entry, rests, congrArg (LiveKey.mk · entry.key.clientOrderId) own⟩
  exact safe.1 key creates _ here terms.1 terms.2 entry.order.price entered known crosses

end Property

/-- Where the quote of a side is that is nearest to the middle. -/
def nearest (halfSpread middle : Int) : Side → Int
  | .buy => middle - halfSpread
  | .sell => middle + halfSpread

/-- The nearest quote of the other side is not met at the price. -/
def Clears (halfSpread middle : Int) (side : Side) (price : Int) : Prop :=
  ¬ side.contra.Crosses (nearest halfSpread middle side.contra) price

instance (halfSpread middle : Int) (side : Side) : DecidablePred (Clears halfSpread middle side) :=
  fun _ => inferInstanceAs (Decidable (¬ _))

/-- The price is not nearer to the middle than the nearest quote of its side. -/
def Beyond (halfSpread middle : Int) (side : Side) (price : Int) : Prop := ¬ side.Before price (nearest halfSpread middle side)

section Spread
variable {halfSpread middle threshold price other : Int} {side : Side}

theorem Beyond.clears (beyond : Beyond halfSpread middle side price) (wide : 0 < halfSpread) :
    Clears halfSpread middle side price := by
  unfold Beyond nearest at beyond
  unfold Clears nearest
  cases side <;> simp only [Side.Before, Side.contra, Side.Crosses] at * <;> omega

/-- Less than the spread away from where a quote belongs is still clear of the other side. -/
theorem Beyond.near (beyond : Beyond halfSpread middle side price) (narrow : threshold ≤ 2 * halfSpread)
    (near : absDiff other price < threshold) : Clears halfSpread middle side other := by
  unfold Beyond nearest at beyond
  unfold Clears nearest
  unfold absDiff at near
  cases side <;> simp only [Side.Before, Side.contra, Side.Crosses] at * <;> split_ifs at near <;> omega

theorem Beyond.apart (beyond : Beyond halfSpread middle side price) (clears : Clears halfSpread middle side.contra other) :
    ¬ side.Crosses price other := by
  unfold Beyond nearest at beyond
  unfold Clears nearest at clears
  cases side <;> simp only [Side.Before, Side.contra, Side.Crosses] at * <;> omega

/-- As the middle moves away from an order, it stays clear. -/
theorem Clears.moves {before : Int} (clears : Clears halfSpread before side price)
    (away : ¬ side.Before before middle) : Clears halfSpread middle side price := by
  unfold Clears nearest at *
  cases side <;> simp only [Side.Before, Side.contra, Side.Crosses] at * <;> omega

end Spread

section Ladder
variable {round : Rounding} {limits : TraderRiskLimits} {account : AccountId} {config : LadderMarketMakerConfig}
  {ladder : LadderMarketMaker} {side : Side}

namespace LadderMarketMaker

/-- A quote that is driven first, and would have to wait, is clear of where the reference price has gone. -/
def Clear (account : AccountId) (client : Client) (engine : MatchingEngine) (planned : Planned LadderMarketMaker) :
    QuoterInput QuoteCycle → Prop
  | .plan _ => True
  | .drive sent => GivesWay account client engine planned.memory.orderIds
      (Clears planned.memory.config.halfSpread planned.memory.reference) planned.plan sent

instance (account : AccountId) (client : Client) (engine : MatchingEngine) (planned : Planned LadderMarketMaker) :
    (input : QuoterInput QuoteCycle) → Decidable (Clear account client engine planned input)
  | .plan _ => inferInstanceAs (Decidable True)
  | .drive _ => inferInstanceAs (Decidable (GivesWay ..))

/-- In the midst of a cycle, quotes are driven to their side of the reference price. -/
structure Underway (config : LadderMarketMakerConfig) (planned : Planned LadderMarketMaker) : Prop where
  formed : Formed config planned.memory
  beyond : ∀ side, ∀ target ∈ planned.plan.left side, ∀ price, target.desiredPrice = some price →
    Beyond config.halfSpread planned.memory.reference side price

theorem driveQuote_reference (side : Side) (target : Target) (sent : Bool) (client : Client) :
    (ladder.driveQuote round limits side target sent client).2.reference = ladder.reference := by
  unfold driveQuote
  cases (ladder.quotes side)[target.level]? with
  | none => rfl
  | some quote => cases side <;> rfl

theorem targets_beyond (same : ladder.config = config) (spaced : 0 ≤ config.levelSpacing) (cycle : QuoteCycle) {target : Target}
    (member : target ∈ ladder.targets cycle side) {price : Int} (desired : target.desiredPrice = some price) :
    Beyond config.halfSpread cycle.reference side price := by
  obtain ⟨level, _, rfl⟩ := List.mem_map.mp member
  have further : 0 ≤ (level : Int) * config.levelSpacing := Int.mul_nonneg (Int.natCast_nonneg level) spaced
  unfold Beyond nearest
  cases side with
  | buy =>
    have desired : ladder.desiredBid cycle.position cycle.reference level = some price := desired
    unfold desiredBid bidPriceFor at desired
    rw [same] at desired
    split_ifs at desired
    obtain rfl := Option.some.inj desired
    simp only [Side.Before]
    omega
  | sell =>
    have desired : ladder.desiredAsk cycle.position cycle.reference level = some price := desired
    unfold desiredAsk askPriceFor at desired
    rw [same] at desired
    split_ifs at desired
    obtain rfl := Option.some.inj desired
    simp only [Side.Before]
    omega

/-- A cycle leads with the side that the reference price moves towards. -/
theorem leading_away {reference : Int} (trails : side ≠ ladder.leading reference) :
    ¬ side.Before ladder.reference reference := by
  unfold leading at trails
  split_ifs at trails with rising
  · obtain rfl : side = .buy := Side.eq_contra_of_ne trails
    exact not_lt.mpr rising
  · obtain rfl : side = .sell := Side.eq_contra_of_ne trails
    exact not_lt.mpr (not_le.mp rising).le

theorem planCycle_left (cycle : QuoteCycle) (side : Side) : (ladder.planCycle cycle).left side = ladder.targets cycle side := by
  unfold QuotePlan.left planCycle
  dsimp only
  split_ifs with same
  · rw [same]
  · rw [Side.eq_contra_of_ne same]

/-- Each quote of the side that a cycle leads with is to be driven. -/
theorem planCycle_ahead (cycle : QuoteCycle) {level : Nat} {orderId : Option ClientOrderId}
    (quoted : (ladder.orderIds (ladder.leading cycle.reference))[level]? = some orderId) :
    (ladder.planCycle cycle).Ahead (ladder.leading cycle.reference) level := by
  have within := (List.getElem?_eq_some_iff.mp quoted).1
  unfold orderIds at within
  rw [List.length_map] at within
  exact ⟨rfl, _, List.mem_map.mpr ⟨level, List.mem_range.mpr within, rfl⟩, rfl⟩

/-- The quotes of a ladder are tended between any two steps of its cycles. -/
def tending (round : Rounding) (limits : TraderRiskLimits) (account : AccountId) (wide : 0 < config.halfSpread)
    (narrow : config.requoteThreshold ≤ 2 * config.halfSpread) (spaced : 0 ≤ config.levelSpacing) :
    Tending (quoter round limits) account where
  orders := orderIds
  threshold := config.requoteThreshold
  formed := Underway config
  good planned := Clears planned.memory.config.halfSpread planned.memory.reference
  gives := Clear account
  calls := quoter_calls
  drove underway _ target sent client := (driveQuote_drove underway.formed target sent client).2
  apart underway next price desired other good := by
    rw [underway.formed.1] at good
    exact (underway.beyond _ _ next.mem price desired).apart good
  plans {client engine planned cycle} idle underway _ _ _ := by
    refine ⟨⟨underway.formed, fun side target member price desired => ?_⟩, ?_, fun id side level price _ _ quoted good => ?_⟩
    · have member : target ∈ (planned.memory.planCycle cycle).left side := member
      rw [planCycle_left] at member
      exact targets_beyond underway.formed.1 spaced cycle member desired
    · funext side
      cases side <;> rfl
    · by_cases lead : side = planned.memory.leading cycle.reference
      · subst lead
        exact Or.inl (planCycle_ahead cycle quoted)
      · exact Or.inr (good.moves (leading_away lead))
  keeps {planned side target rest} underway next sent client := by
    have formed : Formed config ((quoter round limits).drive side target sent client planned.memory).2 :=
      (driveQuote_drove underway.formed target sent client).1
    have reference : ((quoter round limits).drive side target sent client planned.memory).2.reference =
        planned.memory.reference := driveQuote_reference ..
    refine ⟨⟨formed, fun other later member price desired => ?_⟩, fun other price good => ?_⟩
    · dsimp only
      rw [reference]
      exact underway.beyond other later (next.left_subset other member) price desired
    · dsimp only
      rw [reference, formed.1, ← underway.formed.1]
      exact good
  wants {planned side target rest} underway next price desired other near := by
    have beyond := underway.beyond _ _ next.mem price desired
    rw [underway.formed.1]
    rcases near with near | rfl
    · exact beyond.near narrow near
    · exact beyond.clears wide
  way gives := gives

end LadderMarketMaker

end Ladder

/-- No target of the side is met at the price. -/
def Unmet (side : Side) (targets : List Target) (price : Int) : Prop :=
  ∀ target ∈ targets, ∀ desired ∈ target.desiredPrice, ¬ side.Crosses desired price

instance (side : Side) (targets : List Target) : DecidablePred (Unmet side targets) :=
  fun _ => inferInstanceAs (Decidable (∀ _ ∈ _, ∀ _ ∈ _, ¬ _))

section MarketMaker
variable {round : Rounding} {limits : TraderRiskLimits} {account : AccountId} {config : MarketMakerConfig}
  {strategy : MarketMakerStrategy} {client : Client} {engine : MatchingEngine} {side : Side} {mid : Int}

namespace MarketMakerStrategy

/-- A quote that is driven first, and would have to wait, is not in the way of the other. If each is in the way
of the other, as the strategy believes, the ask does not stand. -/
def Clear (account : AccountId) (client : Client) (engine : MatchingEngine) (planned : Planned MarketMakerStrategy) :
    QuoterInput QuotedBook → Prop
  | .plan update => ∀ mid ∈ planned.memory.midFor update, planned.memory.bidWouldCross client mid = true →
      planned.memory.askWouldCross client mid = true →
        ∀ id ∈ planned.memory.askOrderId, upcoming account client engine id = false
  | .drive sent => GivesWay account client engine planned.memory.orderIds
      (fun side => Unmet side.contra (planned.plan.left side.contra)) planned.plan sent

instance (account : AccountId) (client : Client) (engine : MatchingEngine) (planned : Planned MarketMakerStrategy) :
    (input : QuoterInput QuotedBook) → Decidable (Clear account client engine planned input)
  | .plan _ => inferInstanceAs (Decidable (∀ _ ∈ _, _ → _ → ∀ _ ∈ _, _ = _))
  | .drive sent => inferInstanceAs (Decidable (GivesWay account client engine planned.memory.orderIds
      (fun side => Unmet side.contra (planned.plan.left side.contra)) planned.plan sent))

/-- While a book update is followed, the quotes are driven around one midpoint. -/
structure Underway (config : MarketMakerConfig) (planned : Planned MarketMakerStrategy) : Prop where
  same : planned.memory.config = config
  around : ∃ mid, ∀ side, ∀ target ∈ planned.plan.left side, ∀ price, target.desiredPrice = some price →
    price = nearest config.halfSpread mid side

theorem clear_of_wouldCross {desired orderId : Option _} {price : Int} {id : ClientOrderId} {order : ClientOrder}
    (quiet : wouldCross side client desired orderId = false) (wanted : desired = some price) (known : orderId = some id)
    (found : client.oms.orders id = some order) (live : order.state.isTerminal = false) : ¬ side.Crosses price order.price :=
  fun crosses => of_decide_eq_false quiet ⟨price, wanted, (id, order), workingOrder_of_found known found live, crosses⟩

theorem planAround_left (side : Side) : (strategy.planAround client mid).left side =
    [{ level := 0, desiredPrice := strategy.desiredPrice client mid side }] := by
  unfold QuotePlan.left planAround
  dsimp only
  split_ifs with same
  · rw [same]
  · rw [Side.eq_contra_of_ne same]

theorem desiredPrice_nearest {price : Int} (desired : strategy.desiredPrice client mid side = some price) :
    price = nearest strategy.config.halfSpread mid side := by
  cases side with
  | buy =>
    have desired : strategy.desiredBid client mid = some price := desired
    unfold desiredBid at desired
    split_ifs at desired
    exact (Option.some.inj desired).symm
  | sell => exact (Option.some.inj desired).symm

theorem orderIds_eq_some {level : Nat} {orderId : Option ClientOrderId} (quoted : (strategy.orderIds side)[level]? = some orderId) :
    level = 0 ∧ strategy.orderId side = orderId := by
  obtain ⟨within, same⟩ := List.getElem?_eq_some_iff.mp quoted
  obtain rfl := Nat.lt_one_iff.mp within
  exact ⟨rfl, same⟩

/-- What is driven first meets no order of the other side that stands. -/
theorem leading_unmet (synced : Synced account client engine) (finishes : Finishes client)
    (both : strategy.bidWouldCross client mid = true → strategy.askWouldCross client mid = true →
      ∀ id ∈ strategy.askOrderId, upcoming account client engine id = false) (trails : side ≠ strategy.leading client mid)
    {id : ClientOrderId} {price other : Int} (stood : upcoming account client engine id = true)
    (terms : client.terms id = some (side, other)) (known : strategy.orderId side = some id)
    (desired : strategy.desiredPrice client mid side.contra = some price) : ¬ side.contra.Crosses price other := by
  obtain ⟨order, found, live⟩ := upcoming_entered synced finishes stood
  obtain ⟨_, rfl⟩ := Prod.mk.inj (Option.some.inj ((terms_of_found found).symm.trans terms))
  unfold leading at trails
  split_ifs at trails with away
  · obtain rfl : side = .buy := Side.eq_contra_of_ne trails
    exact clear_of_wouldCross (Bool.eq_false_of_not_eq_true away.2) desired known found live
  · obtain rfl : side = .sell := Side.eq_contra_of_ne trails
    refine clear_of_wouldCross (Bool.eq_false_of_not_eq_true fun bid => ?_) desired known found live
    have ask : strategy.askWouldCross client mid = true := not_not.mp fun quiet => away ⟨bid, quiet⟩
    rw [both bid ask id known] at stood
    cases stood

def tending (round : Rounding) (limits : TraderRiskLimits) (account : AccountId) (wide : 0 < config.halfSpread)
    (narrow : config.requoteThreshold ≤ 2 * config.halfSpread) : Tending (quoter round limits) account where
  orders := orderIds
  threshold := config.requoteThreshold
  formed := Underway config
  good planned side := Unmet side.contra (planned.plan.left side.contra)
  gives := Clear account
  calls := quoter_calls
  drove {planned} underway side target sent client := by
    rw [← underway.same]
    exact (driveQuote_drove target sent client).2
  apart {planned side target rest} underway next price desired other good := by
    rw [Side.contra_contra] at good
    exact good target next.mem price desired
  plans {client engine planned update} idle underway synced finishes gives := by
    show Underway config ⟨planned.memory, planned.memory.planBook client update⟩ ∧ _ ∧ ∀ id side level price, _ → _ → _ → _ →
      (planned.memory.planBook client update).Ahead side level ∨
        Unmet side.contra ((planned.memory.planBook client update).left side.contra) price
    unfold planBook
    cases ours : planned.memory.midFor update with
    | none =>
      have nothing (side : Side) : ({} : QuotePlan).left side = [] := by cases side <;> rfl
      refine ⟨⟨underway.same, 0, fun side target member => ?_⟩, rfl, fun _ side _ _ _ _ _ _ => Or.inr fun target member => ?_⟩
      · rw [Option.elim_none, nothing] at member
        cases member
      · rw [Option.elim_none, nothing] at member
        cases member
    | some mid =>
      rw [Option.elim_some]
      refine ⟨⟨underway.same, mid, fun side target member price desired => ?_⟩, rfl,
        fun id side level price stood terms quoted _ => ?_⟩
      · rw [planAround_left] at member
        obtain rfl := List.mem_singleton.mp member
        rw [← underway.same]
        exact desiredPrice_nearest desired
      · obtain ⟨first, known⟩ := orderIds_eq_some quoted
        by_cases lead : side = planned.memory.leading client mid
        · exact Or.inl ⟨lead, _, List.mem_singleton_self _, first.symm⟩
        · refine Or.inr fun target member other desired => ?_
          rw [planAround_left] at member
          obtain rfl := List.mem_singleton.mp member
          exact leading_unmet synced finishes (gives mid ours) lead stood terms known desired
  keeps {planned side target rest} underway next sent client := by
    obtain ⟨mid, around⟩ := underway.around
    refine ⟨⟨?_, mid, fun other later member => around other later (next.left_subset other member)⟩, fun other price good =>
      fun later member => good later (next.left_subset _ member)⟩
    exact (driveQuote_drove target sent client).1.trans underway.same
  wants {planned side target rest} underway next price desired other near := by
    obtain ⟨mid, around⟩ := underway.around
    obtain rfl := around side target next.mem price desired
    have clears : Clears config.halfSpread mid side other := by
      have beyond : Beyond config.halfSpread mid side (nearest config.halfSpread mid side) := Side.Before.irrefl side _
      rcases near with near | rfl
      · exact beyond.near narrow near
      · exact beyond.clears wide
    intro later member contra wanted
    rw [around side.contra later member contra wanted]
    exact clears
  way gives := gives

end MarketMakerStrategy

end MarketMaker

section Runs
variable {round : Rounding} {managed : AccountId → Bool} {account : AccountId} {limits : TraderRiskLimits}
  {exchangeLimits : RiskLimits} {instruments : List InstrumentId} {deposits : List Deposit}

def LadderMarketMaker.start (round : Rounding) (exchangeLimits : RiskLimits) (instruments : List InstrumentId)
    (deposits : List Deposit) (config : LadderMarketMakerConfig) (reference : Int) : Desk (Planned LadderMarketMaker) :=
  Desk.start round exchangeLimits instruments deposits { memory := make config reference }

def MarketMakerStrategy.start (round : Rounding) (exchangeLimits : RiskLimits) (instruments : List InstrumentId)
    (deposits : List Deposit) (config : MarketMakerConfig) : Desk (Planned MarketMakerStrategy) :=
  Desk.start round exchangeLimits instruments deposits { memory := { config } }

end Runs

end Mdh.Trader
