import Mdh.Trader.QuotePlans
import Mdh.Trader.TendedQuotes

/-! Quotes that are driven one by one, as a plan has them, while the exchange and the reports go on. All
is tended in the midst of it, if what is driven first gets out of the way of what is driven second. -/

namespace Mdh.Trader
open Mdh.Core Mdh.Lib Mdh.Matching Mdh.Matching.MatchingEngine Mdh.Risk Mdh.Gateway

section Driving
variable {σ ι : Type} {account : AccountId} {client after : Client} {engine : MatchingEngine} {memory next : σ}
  {orders : σ → Side → List (Option ClientOrderId)} {fine fineAfter : Side → Nat → Int → Prop} {side : Side} {target : Target}
  {orderId : Option ClientOrderId} {sent : Bool}

theorem Held.mono {good better : Int → Prop} (held : Held account client engine good orderId sent)
    (keeps : ∀ price, good price → better price) : Held account client engine better orderId sent :=
  fun id known stood order found waits => keeps order.price (held id known stood order found waits)

/-- An order that stands is at a price that will do for a quote of its side. -/
theorem Tended.held {quotes : Side → List (Option ClientOrderId)} (tended : Tended account client engine quotes fine)
    (there : orderId ∈ quotes side) : Held account client engine (fun price => ∃ level, fine side level price) orderId sent := by
  intro id known stood order found _
  obtain ⟨own, level, price, terms, _, good⟩ := tended.owned id stood
  obtain ⟨_, sided⟩ := tended.sided side orderId there id known
  obtain ⟨rfl, rfl⟩ := Prod.mk.inj (Option.some.inj ((terms_of_found found).symm.trans terms))
  obtain ⟨same, _⟩ := Prod.mk.inj (Option.some.inj ((terms_of_found found).symm.trans sided))
  exact ⟨level, same ▸ good⟩

/-- One quote is driven, if it is there. -/
theorem Tended.drove {threshold : Int} (tended : Tended account client engine (orders memory) fine)
    (synced : Synced account client engine) (finishes : Finishes client)
    (drove : Quoter.Drove orders threshold side target sent client memory after next)
    (clear : ∀ price, target.desiredPrice = some price → ∀ level other, fine side.contra level other → ¬ side.Crosses price other)
    (others : ∀ other row price, (other, row) ≠ (side, target.level) → fine other row price → fineAfter other row price)
    (wants : ∀ price, target.desiredPrice = some price → fineAfter side target.level price)
    (near : ∀ price, target.desiredPrice = some price → ∀ other, absDiff other price < threshold → fineAfter side target.level other)
    (held : ∀ orderId, (orders memory side)[target.level]? = some orderId →
      Held account client engine (fineAfter side target.level) orderId sent) :
    Tended account after engine (orders next) fineAfter := by
  cases drove with
  | absent none =>
    refine tended.mono fun id other row price _ _ quoted => others other row price fun same => ?_
    obtain ⟨rfl, rfl⟩ := Prod.mk.inj same
    rw [none] at quoted
    cases quoted
  | requotes there close requoted now =>
    rw [now]
    exact tended.drive synced finishes requoted there clear others wants
      (fun price desired order close' => near price desired order.price (close order price close')) (held _ there)

/-- If the next quote is of the side that is driven first, and would have to wait while its order stands, then
that order is at a good price where it is. -/
def GivesWay (account : AccountId) (client : Client) (engine : MatchingEngine) (quotes : Side → List (Option ClientOrderId))
    (good : Side → Int → Prop) (plan : QuotePlan) (sent : Bool) : Prop :=
  ∀ target ∈ plan.first.head?, ∀ orderId ∈ (quotes plan.lead)[target.level]?,
    Held account client engine (good plan.lead) orderId sent

instance (account : AccountId) (client : Client) (engine : MatchingEngine) (quotes : Side → List (Option ClientOrderId))
    (good : Side → Int → Prop) [∀ side, DecidablePred (good side)] (plan : QuotePlan) (sent : Bool) :
    Decidable (GivesWay account client engine quotes good plan sent) :=
  inferInstanceAs (Decidable (∀ _ ∈ _, ∀ _ ∈ _, _))

variable {quoter : Quoter σ ι} {planned : Planned σ}

/-- What keeps the quotes of a strategy tended: the prices that are good for a side meet nothing that the
other side is driven to or may have, and what an input is given is enough to keep to them. -/
structure Tending (quoter : Quoter σ ι) (account : AccountId) where
  orders : σ → Side → List (Option ClientOrderId)
  threshold : Int
  formed : Planned σ → Prop
  good : Planned σ → Side → Int → Prop
  gives : Client → MatchingEngine → Planned σ → QuoterInput ι → Prop
  calls : quoter.Calls
  drove : ∀ {planned}, formed planned → ∀ side target sent client, Quoter.Drove orders threshold side target sent client
    planned.memory (quoter.drive side target sent client planned.memory).1 (quoter.drive side target sent client planned.memory).2
  apart : ∀ {planned side target rest}, formed planned → planned.plan.Next side target rest →
    ∀ price, target.desiredPrice = some price → ∀ other, good planned side.contra other → ¬ side.Crosses price other
  plans : ∀ {client engine planned input}, planned.plan.first = [] → formed planned → Synced account client engine →
    Finishes client → gives client engine planned (.plan input) →
    let (memory, plan) := quoter.plan input client planned.memory
    formed ⟨memory, plan⟩ ∧ orders memory = orders planned.memory ∧
      ∀ id side level price, upcoming account client engine id = true → client.terms id = some (side, price) →
        (orders memory side)[level]? = some (some id) → good planned side price →
          plan.Ahead side level ∨ good ⟨memory, plan⟩ side price
  keeps : ∀ {planned side target rest}, formed planned → planned.plan.Next side target rest → ∀ sent client,
    formed ⟨(quoter.drive side target sent client planned.memory).2, rest⟩ ∧
      ∀ other price, good planned other price → good ⟨(quoter.drive side target sent client planned.memory).2, rest⟩ other price
  wants : ∀ {planned side target rest}, formed planned → planned.plan.Next side target rest →
    ∀ price, target.desiredPrice = some price → ∀ other, absDiff other price < threshold ∨ other = price → good planned side other
  way : ∀ {client engine planned sent}, gives client engine planned (.drive sent) →
    GivesWay account client engine (orders planned.memory) (good planned) planned.plan sent

namespace Tending
variable (tending : Tending quoter account)

/-- A price will do for a quote if it is good for its side, or the quote is still to be driven out of the way. -/
def willDo (planned : Planned σ) (side : Side) (level : Nat) (price : Int) : Prop :=
  planned.plan.Ahead side level ∨ tending.good planned side price

variable {tending} {round : Rounding} {managed : AccountId → Bool}

theorem driveNext (synced : Synced account client engine) (finishes : Finishes client) (formed : tending.formed planned)
    (tended : Tended account client engine (tending.orders planned.memory) (tending.willDo planned))
    (gives : tending.gives client engine planned (.drive sent)) :
    let (after, next) := quoter.driveNext sent client planned
    tending.formed next ∧ Tended account after engine (tending.orders next.memory) (tending.willDo next) := by
  rcases quoter.driveNext_cases sent client planned with stays | ⟨side, target, rest, next, drives⟩
  · rw [stays]
    exact ⟨formed, tended⟩
  · rw [drives]
    obtain ⟨formed', keeps⟩ := tending.keeps formed next sent client
    have wants := tending.wants formed next
    refine ⟨formed', tended.drove synced finishes (tending.drove formed side target sent client) ?_ ?_ ?_ ?_ ?_⟩
    · intro price desired level other fine
      exact tending.apart formed next price desired other (fine.resolve_left next.not_ahead)
    · rintro other row price different (ahead | good)
      · exact Or.inl (next.ahead ahead different)
      · exact Or.inr (keeps other price good)
    · exact fun price desired => Or.inr (keeps side price (wants price desired price (Or.inr rfl)))
    · exact fun price desired other near => Or.inr (keeps side other (wants price desired other (Or.inl near)))
    · intro orderId there
      have held : Held account client engine (tending.good planned side) orderId sent := by
        obtain ⟨memory, plan⟩ := planned
        cases next with
        | first lead target => exact tending.way gives target rfl orderId there
        | second lead target =>
          -- What is driven second is where it was, and was good there.
          refine (tended.held (List.mem_of_getElem? there)).mono fun price ⟨level, fine⟩ => fine.resolve_left ?_
          rintro ⟨_, _, member, _⟩
          cases member
      exact held.mono fun price good => Or.inr (keeps side price good)

theorem acts (synced : Synced account client engine) (finishes : Finishes client) (formed : tending.formed planned)
    (tended : Tended account client engine (tending.orders planned.memory) (tending.willDo planned)) {input : QuoterInput ι}
    (gives : tending.gives client engine planned input) :
    let (after, next) := quoter.stepwise.act input client planned
    tending.formed next ∧ Tended account after engine (tending.orders next.memory) (tending.willDo next) := by
  cases input with
  | drive sent => exact driveNext synced finishes formed tended gives
  | plan input =>
    unfold Quoter.stepwise
    dsimp only
    split_ifs with idle
    · obtain ⟨formed', same, keeps⟩ := tending.plans idle.1 formed synced finishes gives
      refine ⟨formed', ?_⟩
      rw [← same] at tended
      refine tended.mono fun id side level price stood terms quoted fine => keeps id side level price stood terms quoted ?_
      refine fine.resolve_left ?_
      rintro ⟨_, _, member, _⟩
      rw [idle.1] at member
      cases member
    · exact ⟨formed, tended⟩

/-- The floor is followed, no report brings an order back, and the quotes are tended. -/
structure Keeps (tending : Tending quoter account) (managed : AccountId → Bool) (desk : Desk (Planned σ)) : Prop where
  followed : Followed managed desk.floor
  finishes : Finishes (desk.floor.clients account)
  formed : tending.formed desk.memory
  tended : Tended account (desk.floor.clients account) desk.floor.exchange.engine (tending.orders desk.memory.memory)
    (tending.willDo desk.memory)

end Tending

end Driving

/-- The exchange does with the orders that rest what the account asks, and an input is given what it needs. -/
def Unobstructed {σ ι : Type} (round : Rounding) (account : AccountId) (gives : Client → MatchingEngine → σ → ι → Prop)
    (desk : Desk σ) : DeskAction ι → Prop
  | .act input => gives (desk.floor.clients account) desk.floor.exchange.engine desk.memory input
  | .floor (.takeRequest other) => other = account →
      ∀ command ∈ (desk.floor.clients account).requests.head?.bind toCommand,
        Honours round desk.floor.exchange (desk.floor.sequencer.sequence command).1
  | .floor (.submitNewOrder ..) | .floor (.cancelOrder ..) | .floor (.replaceOrder ..) | .floor (.outside _)
  | .floor (.handleReport _) => True

instance {σ ι : Type} (round : Rounding) (account : AccountId) (gives : Client → MatchingEngine → σ → ι → Prop)
    [∀ client engine memory input, Decidable (gives client engine memory input)] (desk : Desk σ) :
    (action : DeskAction ι) → Decidable (Unobstructed round account gives desk action)
  | .act input => inferInstanceAs (Decidable (gives _ _ _ input))
  | .floor (.takeRequest _) => inferInstanceAs (Decidable (_ → ∀ _ ∈ _, _))
  | .floor (.submitNewOrder ..) | .floor (.cancelOrder ..) | .floor (.replaceOrder ..) | .floor (.outside _)
  | .floor (.handleReport _) => inferInstanceAs (Decidable True)

namespace Tending
variable {σ ι : Type} {round : Rounding} {managed : AccountId → Bool} {account : AccountId} {quoter : Quoter σ ι}
  {tending : Tending quoter account}

theorem Keeps.step {desk after : Desk (Planned σ)} {action : DeskAction (QuoterInput ι)} (keeps : tending.Keeps managed desk)
    (alone : managed account = true) (clear : Unobstructed round account tending.gives desk action)
    (stepped : desk.step round managed account quoter.stepwise action = some after) : tending.Keeps managed after := by
  obtain ⟨followed, finishes, formed, tended⟩ := keeps
  have synced := followed.synced account alone
  have followed' := Desk.step_followed tending.calls.stepwise alone followed stepped
  have finishes' := step_finishes tending.calls.stepwise alone followed finishes stepped
  suffices both : tending.formed after.memory ∧ Tended account (after.floor.clients account) after.floor.exchange.engine
      (tending.orders after.memory.memory) (tending.willDo after.memory) from ⟨followed', finishes', both.1, both.2⟩
  cases Desk.sees alone followed stepped with
  | acts input client exchange memory =>
    rw [client, exchange, memory]
    exact acts synced finishes formed tended clear
  | stays action client exchange memory =>
    rw [client, exchange, memory]
    exact ⟨formed, tended⟩
  | handles report reports queued client exchange memory =>
    have memory : after.memory = desk.memory := memory.trans (by unfold Strategy.shown; cases Prod.snd _ <;> rfl)
    rw [client, exchange, memory]
    refine ⟨formed, tended.fewer (tended.poised.handle round queued) (handle_terms round tended.poised.priced queued) ?_⟩
    exact fun _ stands => stands
  | takes request requests command queued stands client exchange memory =>
    have relates : Relates round account _ _ _ := followed.relates_own alone queued stands
    have own := (synced.takes queued stands).2.1.own
    have honours := clear rfl command (by rw [queued]; exact stands)
    rw [client, exchange, memory]
    refine ⟨formed, tended.fewer (tended.poised.takes desk.floor.sequencer queued stands own relates honours) rfl ?_⟩
    exact fun _ => relates.upcoming_takes queued stands own honours
  | observes action command foreign client exchange memory =>
    have relates : Relates round account _ _ _ := followed.relates_foreign alone foreign
    rw [client, exchange, memory]
    refine ⟨formed, tended.fewer (tended.poised.observes relates foreign) rfl ?_⟩
    exact fun _ => relates.upcoming_observes foreign

section Runs
variable {limits : RiskLimits} {instruments : List InstrumentId} {deposits : List Deposit} {memory : Planned σ}
  {actions : List (DeskAction (QuoterInput ι))} {desk : Desk (Planned σ)}

end Runs

end Tending

end Mdh.Trader
