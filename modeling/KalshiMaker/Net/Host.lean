import KalshiMaker.Lib.Effect
import KalshiMaker.Core.Types

/-! What the program reaches outside itself: the HTTP transport, the clocks, and the order in
which a hash map is walked. -/
namespace Kalshi

open Effect

/-- JSON values. A number written with a point or an exponent is a `float`. -/
inductive Json where
  | null
  | bool (value : Bool)
  | int (value : Int)
  | float (value : ℚ)
  | str (value : String)
  | arr (items : List Json)
  | obj (fields : List (String × Json))

namespace Json

def find? (key : String) : Json → Option Json
  | .obj fields => (fields.find? fun field => field.1 == key).map Prod.snd
  | _ => none

def getStr : Json → Except String String
  | .str value => .ok value
  | _ => .error "type must be string"

def isNumber : Json → Bool
  | .int _ | .float _ => true
  | _ => false

/-- `get<int>` and `get<long long>`. Neither is the library's own integer type on Linux, so a
boolean is read as well. -/
def getInt : Json → Except String Int
  | .int value => .ok value
  | .float value => .ok (if 0 ≤ value then ⌊value⌋ else ⌈value⌉)
  | .bool value => .ok (if value then 1 else 0)
  | _ => .error "type must be number"

def getBool : Json → Except String Bool
  | .bool value => .ok value
  | _ => .error "type must be boolean"

def «at» (json : Json) (key : String) : Except String Json :=
  match json.find? key with
  | some value => .ok value
  | none => .error ("key '" ++ key ++ "' not found")

/-- `value(key, default)`: the default stands for a missing key only. -/
def valueStr (json : Json) (key default : String) : Except String String :=
  match json with
  | .obj _ =>
    match json.find? key with
    | some value => value.getStr
    | none => .ok default
  | _ => .error "cannot use value() with this type"

end Json

/-- `json` is what parsing the body gives, `none` where it throws. -/
structure HttpResponse where
  statusCode : Int
  body : String := ""
  json : Option Json := none

/-- Everything outside the process, over a state of its own. A call may throw. Answers depend on
that state only, so any pattern of answers and of clock readings is some host's. -/
structure Host (X : Type) where
  get : String → X → Except String HttpResponse × X
  post : String → Json → X → Except String HttpResponse × X
  delete : String → X → Except String HttpResponse × X
  steadyNow : X → TimePoint × X
  systemNow : X → TimePoint × X
  /-- The order in which an unordered map with these keys is walked. -/
  arrange : X → List String → List String
  arrange_perm : ∀ x keys, (arrange x keys).Perm keys

namespace Host

variable {X : Type}

def request (call : X → Except String HttpResponse × X) : Eff X String HttpResponse :=
  fun x => Eff.ofExcept (call x).1 (call x).2

def clock (reading : X → TimePoint × X) : Eff X String TimePoint :=
  fun x => (.ok (reading x).1, (reading x).2)

@[simp] theorem clock_apply (reading : X → TimePoint × X) (x : X) :
    clock reading x = (.ok (reading x).1, (reading x).2) := rfl

/-- A request answers or throws; it never aborts. -/
theorem request_cases (call : X → Except String HttpResponse × X) (x : X) :
    (∃ resp, request call x = (.ok resp, (call x).2)) ∨
    (∃ what, request call x = (.error (.exception what), (call x).2)) := by
  unfold request
  cases (call x).1 with
  | ok resp => exact .inl ⟨resp, rfl⟩
  | error what => exact .inr ⟨what, rfl⟩

end Host

end Kalshi
