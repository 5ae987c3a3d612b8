import KalshiMaker.Net.Host

/-! A small exchange for closed runs: it accepts every order and amend under a new id, answers
cancels from a script, and its clocks stand still until they are told. -/
namespace Kalshi

structure Script where
  nextId : Nat := 1
  /-- Status codes of the coming cancels; 200 when they have run out. -/
  cancels : List Int := []
  time : TimePoint := 0
  deriving DecidableEq, Repr

namespace Script

def acceptance (nextId : Nat) : HttpResponse where
  statusCode := 201
  json := some <| .obj
    [("order_id", .str ("order-" ++ toString nextId)), ("fill_count", .str "0.00"), ("ts_ms", .int 0)]

def host : Host Script where
  get _ x := (.ok { statusCode := 200, body := "{}" }, x)
  post _ _ x := (.ok (acceptance x.nextId), { x with nextId := x.nextId + 1 })
  delete _ x := (.ok { statusCode := x.cancels.headD 200 }, { x with cancels := x.cancels.tail })
  steadyNow x := (x.time, x)
  systemNow x := (x.time, x)
  arrange _ keys := keys
  arrange_perm _ keys := .refl keys

end Script

end Kalshi
