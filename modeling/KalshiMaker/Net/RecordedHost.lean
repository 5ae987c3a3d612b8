import KalshiMaker.Exchange.RestClient

/-! A host that keeps the requests made of it, each with its answer. -/
namespace Kalshi

open Effect

inductive Verb where
  | get
  | post
  | delete
  deriving DecidableEq, Repr

/-- A request and what came of it: an answer, or an exception of the transport. -/
structure Exchanged where
  verb : Verb
  url : String
  answer : Except String HttpResponse

def Exchanged.status (exchanged : Exchanged) : Option Int :=
  match exchanged.answer with
  | .ok resp => some resp.statusCode
  | .error _ => none

variable {X : Type}

namespace Host

def record (verb : Verb) (url : String) (call : X → Except String HttpResponse × X) (x : X × List Exchanged) :
    Except String HttpResponse × X × List Exchanged :=
  ((call x.1).1, (call x.1).2, x.2 ++ [⟨verb, url, (call x.1).1⟩])

/-- The same host, with a record of its requests that nothing reads, oldest first. -/
def recorded (host : Host X) : Host (X × List Exchanged) where
  get url := record .get url (host.get url)
  post url body := record .post url (host.post url body)
  delete url := record .delete url (host.delete url)
  steadyNow x := ((host.steadyNow x.1).1, (host.steadyNow x.1).2, x.2)
  systemNow x := ((host.systemNow x.1).1, (host.systemNow x.1).2, x.2)
  arrange x keys := host.arrange x.1 keys
  arrange_perm x keys := host.arrange_perm x.1 keys

/-- A request answers or throws, and the record has it. -/
theorem request_record (verb : Verb) (url : String) (call : X → Except String HttpResponse × X)
    (x : X × List Exchanged) :
    ∃ x', (∃ resp, request (record verb url call) x = (.ok resp, x', x.2 ++ [⟨verb, url, .ok resp⟩])) ∨
      (∃ what, request (record verb url call) x =
        (.error (.exception what), x', x.2 ++ [⟨verb, url, .error what⟩])) := by
  refine ⟨(call x.1).2, ?_⟩
  unfold request record
  cases (call x.1).1 with
  | ok resp => exact .inl ⟨resp, rfl⟩
  | error what => exact .inr ⟨what, rfl⟩

end Host

namespace RestClient

variable (rest : RestClient) (host : Host X)

def cancelUrl (orderId : OrderId) : String := rest.ordersUrl ++ "/" ++ orderId

def amendUrl (orderId : OrderId) : String := rest.ordersUrl ++ "/" ++ orderId ++ "/amend"

theorem cancelOrder_recorded (orderId : OrderId) (x : X × List Exchanged) :
    ∃ x', (∃ resp, rest.cancelOrder host.recorded orderId x =
        (.ok (decide (200 ≤ resp.statusCode ∧ resp.statusCode ≤ 299)), x',
          x.2 ++ [⟨.delete, rest.cancelUrl orderId, .ok resp⟩])) ∨
      (∃ what, rest.cancelOrder host.recorded orderId x =
        (.error (.exception what), x', x.2 ++ [⟨.delete, rest.cancelUrl orderId, .error what⟩])) := by
  simp only [cancelOrder, Eff.bind_apply]
  obtain ⟨x', ⟨resp, h⟩ | ⟨what, h⟩⟩ :=
    Host.request_record .delete (rest.cancelUrl orderId) (host.delete (rest.cancelUrl orderId)) x
  · exact ⟨x', .inl ⟨resp, congrArg (Eff.andThen _) h⟩⟩
  · exact ⟨x', .inr ⟨what, congrArg (Eff.andThen _) h⟩⟩

theorem amendOrder_recorded (orderId : OrderId) (ticker : Ticker) (side : Side) (price : Int) (count : Quantity)
    (x : X × List Exchanged) :
    ∃ x', (∃ resp, rest.amendOrder host.recorded orderId ticker side price count x =
        (.ok (amendedId resp orderId), x', x.2 ++ [⟨.post, rest.amendUrl orderId, .ok resp⟩])) ∨
      (∃ what, rest.amendOrder host.recorded orderId ticker side price count x =
        (.error (.exception what), x', x.2 ++ [⟨.post, rest.amendUrl orderId, .error what⟩])) := by
  simp only [amendOrder, Eff.bind_apply]
  obtain ⟨x', ⟨resp, h⟩ | ⟨what, h⟩⟩ := Host.request_record .post (rest.amendUrl orderId)
    (host.post (rest.amendUrl orderId) (Json.obj (orderFields ticker side price count "good_till_canceled" ++
      [("post_only", .bool true)]))) x
  · exact ⟨x', .inl ⟨resp, congrArg (Eff.andThen _) h⟩⟩
  · exact ⟨x', .inr ⟨what, congrArg (Eff.andThen _) h⟩⟩

theorem placeOrder_recorded (F : Type) [Floating F] (ticker : Ticker) (side : Side) (price : Int) (count : Quantity)
    (type : OrderType) (x : X × List Exchanged) :
    ∃ answer, (rest.placeOrder host.recorded F ticker side price count type x).2.2 =
      x.2 ++ [⟨.post, rest.ordersUrl, answer⟩] := by
  simp only [placeOrder, Eff.bind_apply]
  obtain ⟨x', ⟨resp, h⟩ | ⟨what, h⟩⟩ := Host.request_record .post rest.ordersUrl
    (host.post rest.ordersUrl (Json.obj (orderFields ticker side price count
      (if type = .market then "immediate_or_cancel" else "good_till_canceled") ++
      if type = .market then [] else [("post_only", .bool true), ("cancel_order_on_pause", .bool true)]))) x
  · refine ⟨.ok resp, ?_⟩
    rw [show Host.request (host.recorded.post rest.ordersUrl _) x = _ from h, Eff.andThen_ok]
    cases placedOrder F resp ticker side price count type <;> rfl
  · refine ⟨.error what, ?_⟩
    rw [show Host.request (host.recorded.post rest.ordersUrl _) x = _ from h, Eff.andThen_error]

end RestClient

end Kalshi
