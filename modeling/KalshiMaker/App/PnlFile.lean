import KalshiMaker.Engine.Desk
import Mathlib.Data.List.Sort

/-! The file that carries realized PnL from one session to the next. -/
namespace Kalshi

variable {F : Type}

/-- What is at the path of the PnL file: nothing, text that is no JSON, or the items of a JSON value as `items()`
visits them, `none` where the item is not a number. -/
inductive PnlFile (F : Type) where
  | missing
  | malformed
  | items (entries : List (Ticker × Option F))

/-- `get<double>()` throws at the first item that is not a number, which keeps what was read before it. -/
def readItems : List (Ticker × Option F) → PnlMap F → PnlMap F
  | (ticker, some cents) :: rest, result => readItems rest (result.insert ticker cents)
  | (_, none) :: _, result | [], result => result

def loadPnl : PnlFile F → PnlMap F
  | .missing | .malformed => ∅
  | .items entries => readItems entries ∅

/-- Items that are all numbers, under distinct keys, are all read. -/
theorem readItems_lookup {entries : List (Σ _ : Ticker, F)} (distinct : entries.NodupKeys) (result : PnlMap F)
    (ticker : Ticker) :
    (readItems (entries.map fun entry => (entry.1, some entry.2)) result).lookup ticker =
      (entries.dlookup ticker).or (result.lookup ticker) := by
  induction entries generalizing result with
  | nil => rfl
  | cons entry entries ih =>
    obtain ⟨key, cents⟩ := entry
    obtain ⟨fresh, distinct⟩ := List.nodupKeys_cons.mp distinct
    rw [List.map_cons, readItems, ih distinct]
    by_cases here : ticker = key
    · subst here
      rw [List.dlookup_cons_eq, List.dlookup_eq_none.mpr fresh, AList.lookup_insert]
      rfl
    · rw [List.dlookup_cons_ne _ _ here, AList.lookup_insert_ne here]

variable [Floating F]

/-- A JSON object lists its keys in order; a number that is not finite is dumped as null. -/
def persistPnl (pnl : PnlMap F) : PnlFile F :=
  .items <| (pnl.entries.insertionSort fun a b => a.1 ≤ b.1).map fun entry =>
    (entry.1, if Floating.isFinite entry.2 then some entry.2 else none)

def PnlMap.Finite (totals : PnlMap F) : Prop := ∀ entry ∈ totals.entries, Floating.isFinite entry.2 = true

/-- A map of finite totals survives the file. -/
theorem load_persist {totals : PnlMap F} (finite : totals.Finite) (ticker : Ticker) :
    (loadPnl (persistPnl totals)).lookup ticker = totals.lookup ticker := by
  have reordered := List.perm_insertionSort (fun a b : Σ _ : Ticker, F => a.1 ≤ b.1) totals.entries
  have distinct := (List.perm_nodupKeys reordered).mpr totals.nodupKeys
  have numbers : persistPnl totals = .items ((totals.entries.insertionSort fun a b => a.1 ≤ b.1).map fun entry =>
      (entry.1, some entry.2)) := by
    unfold persistPnl
    congr 1
    refine List.map_congr_left fun entry member => ?_
    rw [if_pos (finite entry (reordered.mem_iff.mp member))]
  rw [numbers, loadPnl, readItems_lookup distinct, AList.lookup_empty, Option.or_none,
    List.perm_dlookup ticker distinct reordered]
  rfl

end Kalshi
