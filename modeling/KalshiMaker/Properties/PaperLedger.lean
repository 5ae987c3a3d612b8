import KalshiMaker.Net.PaperTransport

/-! What the paper exchange keeps over any sequence of requests and simulated fills, whatever the requests say. -/
namespace Kalshi

open PaperTransport

/-- The fixed part of an order. -/
def Order.contract (order : Order) : OrderId × Ticker × Side × Int × Quantity :=
  (order.id, order.marketTicker, order.side, order.priceCents, order.quantity)

/-- What has been filled of an order, in centi-contracts. -/
def PaperTransport.filledOn {F : Type} (paper : PaperTransport F) (id : OrderId) : Int :=
  ((paper.fills.filter fun fill => fill.orderId == id).map fun fill => fill.quantity.centi).sum

/-- An order is posted or cancelled over HTTP, or a fill of it is simulated. -/
inductive PaperTurn where
  | post (url : String) (request : Json)
  | delete (url : String)
  | simulateFill (orderId : OrderId) (fillQuantity : Int)

/-- `accepted` are the orders the exchange has given an id, oldest first, and `cancelled` the ids of those
that a cancel found open. The exchange reads neither. -/
structure PaperLedger (F Y : Type) where
  outside : PaperWorld F Y
  accepted : List Order := []
  cancelled : List OrderId := []

namespace PaperLedger

variable {F Y : Type}

abbrev paper (s : PaperLedger F Y) : PaperTransport F := s.outside.paper

/-- A paper exchange that has seen nothing yet. -/
def start (y : Y) : PaperLedger F Y := { outside := { paper := {}, rest := y } }

/-- Ids and trade ids come from one counter. An open order is an accepted one with the fills recorded for it, and one
that is not open any more was filled or cancelled. -/
structure Balanced (s : PaperLedger F Y) : Prop where
  distinct : Keyed.Distinct Order.id s.paper.openOrders
  active : ∀ order ∈ s.paper.openOrders, order.isActive = true
  unique : Keyed.Distinct Order.id s.accepted
  numbered : ∀ first ∈ s.accepted, ∃ k < s.paper.nextId, first.id = paperId k
  traded : Keyed.Distinct Fill.tradeId s.paper.fills
  tradeNumbered : ∀ fill ∈ s.paper.fills, ∃ k < s.paper.nextId, fill.tradeId = "paper-trade-" ++ toString k
  placed : ∀ {id order}, s.paper.order? id = some order → ∃ first ∈ s.accepted, first.contract = order.contract
  counted : ∀ {id order}, s.paper.order? id = some order → order.filledQuantity.centi = s.paper.filledOn id
  owned : ∀ fill ∈ s.paper.fills, ∃ first ∈ s.accepted, fill.orderId = first.id ∧
    fill.marketTicker = first.marketTicker ∧ fill.side = first.side ∧ fill.priceCents = first.priceCents
  bounded : ∀ first ∈ s.accepted, 0 ≤ first.quantity.centi → s.paper.filledOn first.id ≤ first.quantity.centi
  ended : ∀ first ∈ s.accepted, s.paper.order? first.id ≠ none ∨
    s.paper.filledOn first.id = first.quantity.centi ∨ first.id ∈ s.cancelled

variable {s : PaperLedger F Y}

theorem start_balanced (y : Y) : (start y : PaperLedger F Y).Balanced where
  distinct := List.nodup_nil
  active := by simp [start]
  unique := List.nodup_nil
  numbered := by simp [start]
  traded := List.nodup_nil
  tradeNumbered := by simp [start]
  placed := by simp [start, order?]
  counted := by simp [start, order?]
  owned := by simp [start]
  bounded := by simp [start]
  ended := by simp [start]

theorem ok_of_bind {ε α β : Type} {m : Except ε α} {f : α → Except ε β} {b : β} (ran : m >>= f = .ok b) :
    ∃ a, m = .ok a ∧ f a = .ok b := by
  cases m with
  | error what => cases ran
  | ok a => exact ⟨a, rfl, ran⟩

namespace Balanced

theorem fresh (balanced : s.Balanced) : s.paper.nextOrderId ∉ s.accepted.map Order.id := by
  intro member
  obtain ⟨first, there, same⟩ := List.mem_map.mp member
  obtain ⟨k, earlier, numbered⟩ := balanced.numbered first there
  exact absurd (numbered_injective "paper-" (numbered.symm.trans same)) (by omega)

theorem fresh_open (balanced : s.Balanced) : s.paper.nextOrderId ∉ s.paper.openOrders.map Order.id := by
  intro member
  obtain ⟨order, there, same⟩ := List.mem_map.mp member
  obtain ⟨first, accepted, contract⟩ := balanced.placed (Keyed.lookup_of_mem balanced.distinct there)
  have ids : first.id = order.id := congrArg Prod.fst contract
  exact balanced.fresh (List.mem_map.mpr ⟨first, accepted, ids.trans same⟩)

theorem filledOn_fresh (balanced : s.Balanced) : s.paper.filledOn s.paper.nextOrderId = 0 := by
  have missing : (s.paper.fills.filter fun fill => fill.orderId == s.paper.nextOrderId) = [] := by
    refine List.filter_eq_nil_iff.mpr fun fill member named => ?_
    obtain ⟨first, accepted, same, -⟩ := balanced.owned fill member
    exact balanced.fresh (List.mem_map.mpr ⟨first, accepted, same.symm.trans (beq_iff_eq.mp named)⟩)
  unfold PaperTransport.filledOn
  rw [missing]
  rfl

/-- An order is for what it was accepted for. -/
theorem accepted_for (balanced : s.Balanced) {order first : Order} (found : s.paper.order? order.id = some order)
    (member : first ∈ s.accepted) (same : first.id = order.id) : first.quantity = order.quantity := by
  obtain ⟨placed, there, contract⟩ := balanced.placed found
  simp only [Order.contract, Prod.mk.injEq] at contract
  have one : first = placed := List.inj_on_of_nodup_map balanced.unique member there (same.trans contract.1.symm)
  rw [one]
  exact contract.2.2.2.2

theorem accept (balanced : s.Balanced) {order : Order} (unfilled : order.filledQuantity = {})
    (opened : order.status = .open) (now : TimePoint) (y : Y) :
    Balanced {
      outside := { paper := s.paper.accept order now, rest := y }
      accepted := s.accepted ++ [{ order with id := s.paper.nextOrderId }]
      cancelled := s.cancelled } where
  distinct := Keyed.distinct_append balanced.distinct balanced.fresh_open
  active := by
    intro other member
    rcases List.mem_append.mp member with member | member
    · exact balanced.active other member
    · rw [List.mem_singleton.mp member]
      simp [Order.isActive, opened]
  unique := Keyed.distinct_append balanced.unique balanced.fresh
  numbered := by
    intro first member
    rcases List.mem_append.mp member with member | member
    · obtain ⟨k, earlier, numbered⟩ := balanced.numbered first member
      exact ⟨k, Nat.lt_succ_of_lt earlier, numbered⟩
    · exact ⟨s.paper.nextId, Nat.lt_succ_self _, by rw [List.mem_singleton.mp member]; rfl⟩
  traded := balanced.traded
  tradeNumbered := by
    intro fill member
    obtain ⟨k, earlier, numbered⟩ := balanced.tradeNumbered fill member
    exact ⟨k, Nat.lt_succ_of_lt earlier, numbered⟩
  placed := by
    intro id other found
    change (s.paper.accept order now).order? id = _ at found
    rw [order?_accept balanced.fresh_open] at found
    split at found
    · cases found
      exact ⟨_, List.mem_append_right _ (List.mem_singleton_self _), rfl⟩
    · obtain ⟨first, member, contract⟩ := balanced.placed found
      exact ⟨first, List.mem_append_left _ member, contract⟩
  counted := by
    intro id other found
    change (s.paper.accept order now).order? id = _ at found
    rw [order?_accept balanced.fresh_open] at found
    split at found
    next new =>
      cases found
      subst new
      exact (congrArg Quantity.centi unfilled).trans balanced.filledOn_fresh.symm
    next => exact balanced.counted found
  owned := by
    intro fill member
    obtain ⟨first, accepted, terms⟩ := balanced.owned fill member
    exact ⟨first, List.mem_append_left _ accepted, terms⟩
  bounded := by
    intro first member sized
    rcases List.mem_append.mp member with member | member
    · exact balanced.bounded first member sized
    · rw [List.mem_singleton] at member
      subst member
      exact balanced.filledOn_fresh.trans_le sized
  ended := by
    intro first member
    change (s.paper.accept order now).order? first.id ≠ none ∨ _
    rw [order?_accept balanced.fresh_open]
    rcases List.mem_append.mp member with member | member
    · split
      · exact .inl (Option.some_ne_none _)
      · exact balanced.ended first member
    · rw [List.mem_singleton] at member
      subst member
      rw [if_pos rfl]
      exact .inl (Option.some_ne_none _)

theorem filledOn_delete (paper : PaperTransport F) (url : String) (id : OrderId) :
    (paper.delete url).filledOn id = paper.filledOn id := by
  unfold PaperTransport.filledOn
  rw [delete_fills]

theorem order?_deleted (balanced : s.Balanced) (url : String) (id : OrderId) :
    (s.paper.delete url).order? id =
      if '/' ∈ url.toList ∧ id = lastSegment url then none else s.paper.order? id := by
  by_cases slash : '/' ∈ url.toList
  · rw [order?_delete balanced.distinct slash]
    simp [slash]
  · unfold PaperTransport.delete
    simp [slash]

end Balanced

/-! ### What the exchange does -/

variable [Floating F] (world : Host Y)

def take (s : PaperLedger F Y) : PaperTurn → PaperLedger F Y
  | .post url request =>
    { s with
      outside := ((PaperWorld.host world).post url request s.outside).2
      accepted := s.accepted ++
        (readOrder F request).toOption.toList.map fun order => { order with id := s.paper.nextOrderId } }
  | .delete url =>
    { s with
      outside := ((PaperWorld.host world).delete url s.outside).2
      cancelled := s.cancelled ++
        if '/' ∈ url.toList ∧ (s.paper.order? (lastSegment url)).isSome then [lastSegment url] else [] }
  | .simulateFill orderId fillQuantity => { s with outside := (s.outside.simulateFill world orderId fillQuantity).2 }

def run (s : PaperLedger F Y) (turns : List PaperTurn) : PaperLedger F Y := turns.foldl (take world) s

theorem readOrder_fresh {request : Json} {order : Order} (read : readOrder F request = .ok order) :
    order.filledQuantity = {} ∧ order.status = .open := by
  unfold readOrder at read
  -- the fields are read one after the other, and none of them says how much is filled
  iterate 11 obtain ⟨_, -, read⟩ := ok_of_bind read
  cases read
  exact ⟨rfl, rfl⟩

namespace Balanced

theorem post (balanced : s.Balanced) (url : String) (request : Json) :
    (s.take world (.post url request)).Balanced := by
  cases read : readOrder F request with
  | error what =>
    have refused : s.take world (.post url request) = s := by
      simp [take, PaperWorld.host, PaperWorld.post, read, Except.toOption]
    rw [refused]
    exact balanced
  | ok order =>
    obtain ⟨unfilled, opened⟩ := readOrder_fresh read
    have taken := balanced.accept unfilled opened (world.systemNow s.outside.rest).1 (world.systemNow s.outside.rest).2
    unfold take
    simp only [PaperWorld.host, PaperWorld.post, read, Except.toOption]
    exact taken

theorem delete (balanced : s.Balanced) (url : String) : (s.take world (.delete url)).Balanced where
  distinct := by
    change Keyed.Distinct Order.id (s.paper.delete url).openOrders
    unfold PaperTransport.delete
    split
    · exact Keyed.distinct_eraseP balanced.distinct
    · exact balanced.distinct
  active := by
    intro order member
    change order ∈ (s.paper.delete url).openOrders at member
    unfold PaperTransport.delete at member
    split at member
    · exact balanced.active order (List.mem_of_mem_eraseP member)
    · exact balanced.active order member
  unique := balanced.unique
  numbered := by
    change ∀ first ∈ s.accepted, ∃ k < (s.paper.delete url).nextId, _
    rw [delete_nextId]
    exact balanced.numbered
  traded := by
    change Keyed.Distinct Fill.tradeId (s.paper.delete url).fills
    rw [delete_fills]
    exact balanced.traded
  tradeNumbered := by
    change ∀ fill ∈ (s.paper.delete url).fills, ∃ k < (s.paper.delete url).nextId, _
    rw [delete_fills, delete_nextId]
    exact balanced.tradeNumbered
  placed := by
    intro id order found
    change (s.paper.delete url).order? id = _ at found
    rw [balanced.order?_deleted] at found
    split at found
    · cases found
    · exact balanced.placed found
  counted := by
    intro id order found
    change (s.paper.delete url).order? id = _ at found
    change _ = (s.paper.delete url).filledOn id
    rw [balanced.order?_deleted] at found
    rw [filledOn_delete]
    split at found
    · cases found
    · exact balanced.counted found
  owned := by
    change ∀ fill ∈ (s.paper.delete url).fills, _
    rw [delete_fills]
    exact balanced.owned
  bounded := by
    intro first member sized
    change (s.paper.delete url).filledOn first.id ≤ _
    rw [filledOn_delete]
    exact balanced.bounded first member sized
  ended := by
    intro first member
    change (s.paper.delete url).order? first.id ≠ none ∨ (s.paper.delete url).filledOn first.id = _ ∨ _
    rw [balanced.order?_deleted, filledOn_delete]
    rcases balanced.ended first member with standing | full | told
    · split
      next gone =>
        -- it was open, so this cancel is the one that ended it
        refine .inr (.inr (List.mem_append_right _ ?_))
        rw [gone.2] at standing ⊢
        rw [if_pos ⟨gone.1, Option.isSome_iff_ne_none.mpr standing⟩]
        exact List.mem_singleton_self _
      next => exact .inl standing
    · exact .inr (.inl full)
    · exact .inr (.inr (List.mem_append_left _ told))

theorem filledOn_filled (paper : PaperTransport F) (order : Order) (quantity : Quantity) (now : TimePoint)
    (id : OrderId) :
    (paper.filled order quantity now).filledOn id = paper.filledOn id +
      if id = order.id then quantity.centi else 0 := by
  unfold PaperTransport.filledOn PaperTransport.filled
  rw [List.filter_append, List.map_append, List.sum_append]
  by_cases own : id = order.id
  · simp [own]
  · have other : ¬ order.id = id := fun same => own same.symm
    simp [own, other]

theorem distinct_filled (balanced : s.Balanced) (order : Order) (quantity : Quantity) (now : TimePoint) :
    Keyed.Distinct Order.id (s.paper.filled order quantity now).openOrders := by
  unfold PaperTransport.filled
  dsimp only
  split
  · exact Keyed.distinct_eraseP balanced.distinct
  · have keys : (s.paper.openOrders.replaceF fun other =>
        if fillable order.id other then some (afterFill order quantity) else none).map Order.id =
          s.paper.openOrders.map Order.id := by
      refine Keyed.map_key_replaceF (j := order.id) (b := afterFill order quantity) (fun other member => ?_) rfl
      simp only [fillable_iff (balanced.active other member) order.id]
    unfold Keyed.Distinct
    rw [keys]
    exact balanced.distinct

/-- A fill within what is left keeps an order's fills within what it is for. -/
theorem bounded_filled (balanced : s.Balanced) {order first : Order} (found : s.paper.order? order.id = some order)
    {quantity : Quantity} (within : quantity.centi ≤ order.remainingQuantity.centi) (now : TimePoint)
    (member : first ∈ s.accepted) (sized : 0 ≤ first.quantity.centi) :
    (s.paper.filled order quantity now).filledOn first.id ≤ first.quantity.centi := by
  rw [filledOn_filled]
  by_cases own : first.id = order.id
  · have counted := balanced.counted found
    rw [if_pos own, own, balanced.accepted_for found member own]
    simp only [Order.remainingQuantity, Quantity.sub_centi] at within
    omega
  · rw [if_neg own, add_zero]
    exact balanced.bounded first member sized

theorem ended_filled (balanced : s.Balanced) {order first : Order} (found : s.paper.order? order.id = some order)
    (quantity : Quantity) (now : TimePoint) (member : first ∈ s.accepted) :
    (s.paper.filled order quantity now).order? first.id ≠ none ∨
      (s.paper.filled order quantity now).filledOn first.id = first.quantity.centi ∨ first.id ∈ s.cancelled := by
  rw [order?_filled balanced.distinct balanced.active found, filledOn_filled]
  by_cases own : first.id = order.id
  · rw [if_pos own, if_pos own]
    split
    next full =>
      -- it has left the book, and all of it is in the fills
      have counted := balanced.counted found
      have whole := congrArg Quantity.centi full
      simp only [Quantity.add_centi] at whole
      refine .inr (.inl ?_)
      rw [own, balanced.accepted_for found member own]
      omega
    next => exact .inl (Option.some_ne_none _)
  · rw [if_neg own, if_neg own, add_zero]
    exact balanced.ended first member

theorem filled (balanced : s.Balanced) {order : Order} (found : s.paper.order? order.id = some order)
    {quantity : Quantity} (within : quantity.centi ≤ order.remainingQuantity.centi) (now : TimePoint) (y : Y) :
    Balanced { s with outside := { paper := s.paper.filled order quantity now, rest := y } } where
  distinct := balanced.distinct_filled order quantity now
  active := by
    intro other member
    rcases mem_filled member with before | ⟨rfl, partly⟩
    · exact balanced.active other before
    · simp [Order.isActive, afterFill, partly]
  unique := balanced.unique
  numbered := by
    intro first member
    obtain ⟨k, earlier, numbered⟩ := balanced.numbered first member
    exact ⟨k, Nat.lt_succ_of_lt earlier, numbered⟩
  traded := by
    refine Keyed.distinct_append balanced.traded fun member => ?_
    obtain ⟨fill, there, same⟩ := List.mem_map.mp member
    obtain ⟨k, earlier, numbered⟩ := balanced.tradeNumbered fill there
    exact absurd (numbered_injective "paper-trade-" (numbered.symm.trans same)) (by omega)
  tradeNumbered := by
    intro fill member
    rcases List.mem_append.mp member with member | member
    · obtain ⟨k, earlier, numbered⟩ := balanced.tradeNumbered fill member
      exact ⟨k, Nat.lt_succ_of_lt earlier, numbered⟩
    · exact ⟨s.paper.nextId, Nat.lt_succ_self _, by rw [List.mem_singleton.mp member]⟩
  placed := by
    intro id other there
    change (s.paper.filled order quantity now).order? id = _ at there
    rw [order?_filled balanced.distinct balanced.active found] at there
    split at there
    · split at there
      · cases there
      · cases there
        obtain ⟨first, member, contract⟩ := balanced.placed found
        exact ⟨first, member, contract⟩
    · exact balanced.placed there
  counted := by
    intro id other there
    change (s.paper.filled order quantity now).order? id = _ at there
    change _ = (s.paper.filled order quantity now).filledOn id
    rw [order?_filled balanced.distinct balanced.active found] at there
    rw [filledOn_filled]
    split at there
    next own =>
      split at there
      · cases there
      · cases there
        rw [if_pos own, own, ← balanced.counted found]
        rfl
    next different =>
      rw [if_neg different, add_zero]
      exact balanced.counted there
  owned := by
    intro fill member
    rcases List.mem_append.mp member with member | member
    · exact balanced.owned fill member
    · rw [List.mem_singleton] at member
      subst member
      obtain ⟨first, accepted, contract⟩ := balanced.placed found
      simp only [Order.contract, Prod.mk.injEq] at contract
      obtain ⟨ids, on, sided, priced, -⟩ := contract
      exact ⟨first, accepted, ids.symm, on.symm, sided.symm, priced.symm⟩
  bounded := fun _ member sized => balanced.bounded_filled found within now member sized
  ended := fun _ member => balanced.ended_filled found quantity now member

theorem simulateFill (balanced : s.Balanced) (orderId : OrderId) (fillQuantity : Int) :
    (s.take world (.simulateFill orderId fillQuantity)).Balanced := by
  unfold take PaperWorld.simulateFill
  dsimp only
  cases target : s.outside.paper.openOrders.find? (fillable orderId) with
  | none => exact balanced
  | some order =>
    have found : s.paper.order? order.id = some order :=
      Keyed.lookup_of_mem balanced.distinct (List.mem_of_find?_eq_some target)
    refine balanced.filled found ?_ _ _
    rw [Quantity.min_centi]
    exact min_le_right _ _

end Balanced

theorem Balanced.take (balanced : s.Balanced) (turn : PaperTurn) : (s.take world turn).Balanced := by
  cases turn with
  | post url request => exact balanced.post world url request
  | delete url => exact balanced.delete world url
  | simulateFill orderId fillQuantity => exact balanced.simulateFill world orderId fillQuantity

theorem Balanced.run (balanced : s.Balanced) (turns : List PaperTurn) : (s.run world turns).Balanced := by
  induction turns generalizing s with
  | nil => exact balanced
  | cons turn turns ih => exact ih (balanced.take world turn)

end PaperLedger

/-- Whatever is posted, cancelled and filled, no id is given out twice, every fill is one of an order that
was accepted, at its market, side and price, and the fills of an order add up: to what an open order counts
as filled, to no more than was ordered, and to all of it where the order has left the book uncancelled. -/
theorem paper_fills_add_up {F Y : Type} [Floating F] (world : Host Y) (y : Y) (turns : List PaperTurn) :
    let s := (PaperLedger.start y : PaperLedger F Y).run world turns
    (s.accepted.map Order.id).Nodup ∧ (s.paper.fills.map Fill.tradeId).Nodup ∧
    (∀ fill ∈ s.paper.fills, ∃ first ∈ s.accepted, fill.orderId = first.id ∧
      fill.marketTicker = first.marketTicker ∧ fill.side = first.side ∧ fill.priceCents = first.priceCents) ∧
    (∀ order ∈ s.paper.openOrders, order.filledQuantity.centi = s.paper.filledOn order.id ∧
      ∃ first ∈ s.accepted, first.contract = order.contract) ∧
    ∀ first ∈ s.accepted,
      (0 ≤ first.quantity.centi → s.paper.filledOn first.id ≤ first.quantity.centi) ∧
      (first.id ∈ s.paper.openOrders.map Order.id ∨ s.paper.filledOn first.id = first.quantity.centi ∨
        first.id ∈ s.cancelled) := by
  intro s
  have balanced : s.Balanced := (PaperLedger.start_balanced y).run world turns
  refine ⟨balanced.unique, balanced.traded, balanced.owned, fun order member => ?_, fun first member => ?_⟩
  · have found := Keyed.lookup_of_mem balanced.distinct member
    exact ⟨balanced.counted found, balanced.placed found⟩
  · refine ⟨balanced.bounded first member, ?_⟩
    rcases balanced.ended first member with standing | ended
    · left
      by_contra absent
      exact standing (Keyed.lookup_eq_none.mpr absent)
    · exact .inr ended

end Kalshi
