import LocalFirst.Crdt.Operation

/-!
# Local text edits

Model of `apps/web/src/editor/text-edit.ts`.  The grapheme segmenter is a parameter: it is a
service of the browser.
-/

set_option autoImplicit false

namespace LocalFirst

structure LocalTextEdit where
  deleteTargetIds : List JsString
  insertAfterId : JsString
  insertValues : List JsString
  deriving DecidableEq

/-- The first `while` loop: how many values agree from the start. -/
def commonPrefixLength : List JsString → List JsString → Nat
  | x :: xs, y :: ys => if x = y then commonPrefixLength xs ys + 1 else 0
  | _, _ => 0

/-- The second `while` loop: how many values agree from the end, outside a prefix. -/
def commonSuffixLength (prefixLength : Nat) (current next : List JsString) : Nat :=
  commonPrefixLength (current.drop prefixLength).reverse (next.drop prefixLength).reverse

/-- `items.slice(start, stop)` for indices in range. -/
def slice {α : Type} (start stop : Nat) (items : List α) : List α := (items.take stop).drop start

def computeLocalTextEdit (segmentGraphemes : JsString → List JsString)
    (currentElements : List VisibleElement) (nextText : JsString) : Option LocalTextEdit :=
  let currentValues := currentElements.map (·.value)
  let nextValues := segmentGraphemes nextText
  let prefixLength := commonPrefixLength currentValues nextValues
  let suffixLength := commonSuffixLength prefixLength currentValues nextValues
  let currentChangeEnd := currentValues.length - suffixLength
  let nextChangeEnd := nextValues.length - suffixLength
  let deleteTargetIds := (slice prefixLength currentChangeEnd currentElements).map (·.id)
  let insertValues := slice prefixLength nextChangeEnd nextValues
  if deleteTargetIds.length = 0 ∧ insertValues.length = 0 then none
  else
    let previousElement :=
      if prefixLength > 0 then currentElements[prefixLength - 1]? else none
    some ⟨deleteTargetIds, (previousElement.map (·.id)).getD ROOT_ID, insertValues⟩

end LocalFirst
