import Mathlib.Data.Prod.Lex
import LocalFirst.Crdt.Replica

/-!
# The sibling order

`compareNodes` compares a key in a linear order: Lamport value descending, client id
ascending, counter ascending.  The key is a function of the insert operation, so it does not
change while a node is tombstoned and it is the same in every replica.

* `comparesKey_compareNodes` — `compareNodes` compares `nodeKey`.
* `opId_eq_of_opKey_eq` — valid operations with equal keys have equal identities.
* `spliceSibling_eq` — `insertChild` inserts in key order.
-/

set_option autoImplicit false

namespace LocalFirst

/-- The sort key of a sibling. -/
abbrev SiblingKey := ℤ ×ₗ JsString ×ₗ ℤ

def nodeKey (n : TextNode) : SiblingKey := toLex (-n.lamport, toLex (n.clientId, n.counter))

def opKey (op : TextOperation) : SiblingKey :=
  toLex (-op.lamport, toLex (op.clientId, op.counter))

theorem nodeKey_lt_iff {a b : TextNode} : nodeKey a < nodeKey b ↔
    b.lamport < a.lamport ∨ (a.lamport = b.lamport ∧
      (a.clientId < b.clientId ∨ (a.clientId = b.clientId ∧ a.counter < b.counter))) := by
  simp [nodeKey, Prod.Lex.toLex_lt_toLex]

theorem nodeKey_eq_iff {a b : TextNode} : nodeKey a = nodeKey b ↔
    a.lamport = b.lamport ∧ a.clientId = b.clientId ∧ a.counter = b.counter := by
  simp [nodeKey]

theorem compareNodes_lt_iff {a b : TextNode} : compareNodes a b < 0 ↔ nodeKey a < nodeKey b := by
  rw [nodeKey_lt_iff]
  unfold compareNodes
  by_cases h1 : a.lamport = b.lamport
  · by_cases h2 : a.clientId = b.clientId
    · by_cases h3 : a.counter = b.counter
      · simp [h1, h2, h3]
      · by_cases h4 : a.counter < b.counter <;> simp [h1, h2, h3, h4]
    · by_cases h4 : a.clientId < b.clientId <;> simp [h1, h2, h4]
  · by_cases h4 : b.lamport < a.lamport
    · simp [h1, h4]
    · simp [h1, h4]

theorem compareNodes_eq_zero_iff {a b : TextNode} :
    compareNodes a b = 0 ↔ nodeKey a = nodeKey b := by
  rw [nodeKey_eq_iff]
  unfold compareNodes
  by_cases h1 : a.lamport = b.lamport
  · by_cases h2 : a.clientId = b.clientId
    · by_cases h3 : a.counter = b.counter
      · simp [h1, h2, h3]
      · by_cases h4 : a.counter < b.counter <;> simp [h1, h2, h3, h4]
    · by_cases h4 : a.clientId < b.clientId <;> simp [h1, h2, h4]
  · by_cases h4 : b.lamport < a.lamport <;> simp [h1, h4]

theorem comparesKey_compareNodes : ComparesKey compareNodes nodeKey where
  le_zero a b := by
    rw [le_iff_lt_or_eq, le_iff_lt_or_eq, compareNodes_lt_iff, compareNodes_eq_zero_iff]

/-- Valid operations with equal keys have equal identities. -/
theorem opId_eq_of_opKey_eq {a b : TextOperation} (ha : ValidOperation a) (hb : ValidOperation b)
    (h : opKey a = opKey b) : a.opId = b.opId := by
  have hk : a.clientId = b.clientId ∧ a.counter = b.counter := by
    simp only [opKey, toLex_inj, Prod.mk.injEq] at h
    exact h.2
  rw [ha.opId_eq, hb.opId_eq, hk.1, hk.2]

/-- The sibling key of a known operation. -/
def idKey (known : InsMap JsString TextOperation) (id : JsString) : SiblingKey :=
  match known.get? id with
  | some op => opKey op
  | none => toLex (0, toLex ([], 0))

theorem idKey_of_get? {known : InsMap JsString TextOperation} {id : JsString}
    {op : TextOperation} (h : known.get? id = some op) : idKey known id = opKey op := by
  simp [idKey, h]

/-- **`insertChild` inserts in key order.** -/
theorem spliceSibling_eq {nodes : InsMap JsString TextNode} {node : TextNode}
    {key : JsString → SiblingKey} (hkey : key node.id = nodeKey node) :
    ∀ {siblings : List JsString},
      (∀ s ∈ siblings, s ≠ [] ∧ key s ≠ key node.id ∧ ∃ n, nodes.get? s = some n ∧ nodeKey n = key s) →
      TextReplica.spliceSibling nodes node siblings =
        .ok (siblings.orderedInsert (fun x y => key x ≤ key y) node.id)
  | [], _ => rfl
  | s :: siblings, h => by
    obtain ⟨hne, hk, n, hn, hnk⟩ := h s List.mem_cons_self
    have ih := spliceSibling_eq hkey fun t ht => h t (List.mem_cons_of_mem _ ht)
    have hlt : compareNodes node n < 0 ↔ key node.id ≤ key s := by
      rw [compareNodes_lt_iff, hnk, ← hkey]
      exact ⟨le_of_lt, fun hle => lt_of_le_of_ne hle (Ne.symm hk)⟩
    simp only [TextReplica.spliceSibling, if_neg hne, hn, List.orderedInsert_cons]
    by_cases hc : compareNodes node n < 0
    · rw [if_pos hc, if_pos (hlt.1 hc)]
    · rw [if_neg hc, if_neg fun hle => hc (hlt.2 hle), ih]
      rfl

end LocalFirst
