import LocalFirst.Client.ConcurrentEdit
import LocalFirst.Crdt.Identity
import LocalFirst.Crdt.Resolution
import LocalFirst.Crdt.Splice

/-!
# What a local edit does

The difference of two texts is a range of elements to delete and a list of graphemes to put in
their place.  Applied to the replica the edit was computed for, its operations produce exactly the
text that was asked for and leave everything around the range as it was.

* `Segments` — what is assumed of the segmenter.
* `edit_split` — the parts of the document that an edit keeps and replaces.
* `Editable.deletes`, `Editable.inserts` — applying the two batches of an edit.
* `local_edit_exact` — the document after a local edit.
-/

set_option autoImplicit false

namespace LocalFirst

open Database

/-- The segments of a text are not empty, and together they are the text. -/
structure Segments (segmentGraphemes : JsString → List JsString) : Prop where
  nonempty : ∀ text, ∀ s ∈ segmentGraphemes text, s ≠ []
  flatten : ∀ text, (segmentGraphemes text).flatten = text

/-- A segmenter that cuts between all code units. -/
theorem segments_codeUnits : Segments fun text => text.map ([·]) where
  nonempty text s hs := by
    obtain ⟨c, -, rfl⟩ := List.mem_map.1 hs
    exact List.cons_ne_nil c []
  flatten text := by
    induction text with
    | nil => rfl
    | cons c text ih => rw [List.map_cons, List.flatten_cons, ih, List.singleton_append]

/-! ## The difference -/

section

variable {segmentGraphemes : JsString → List JsString} {elements : List VisibleElement}
  {nextText : JsString}

theorem commonSuffixLength_spec (p : Nat) (current next : List JsString)
    (hp : p = commonPrefixLength current next) :
    let s := commonSuffixLength p current next
    p + s ≤ current.length ∧ p + s ≤ next.length ∧ current.take p = next.take p ∧
      current.drop (current.length - s) = next.drop (next.length - s) := by
  intro s
  have hpre := commonPrefixLength_spec current next
  have hple := commonPrefixLength_le current next
  rw [← hp] at hpre hple
  have hsuf : LongestCommonPrefix ((current.drop p).reverse.take s) _ _ :=
    commonPrefixLength_spec (current.drop p).reverse (next.drop p).reverse
  have hsle : s ≤ _ := commonPrefixLength_le (current.drop p).reverse (next.drop p).reverse
  rw [List.length_reverse, List.length_drop] at hsle
  have hptake : (current.take p).length = p := by rw [List.length_take, Nat.min_eq_left hple]
  have hstake : ((current.drop p).reverse.take s).length = s := by
    rw [List.length_take, List.length_reverse, List.length_drop, Nat.min_eq_left hsle]
  have hpnext := hpre.right.length_le
  have hsnext := hsuf.right.length_le
  rw [hptake] at hpnext
  rw [hstake, List.length_reverse, List.length_drop] at hsnext
  refine ⟨by omega, by omega, ?_, ?_⟩
  · have := List.prefix_iff_eq_take.1 hpre.right
    rwa [hptake] at this
  · have heq : (current.drop p).reverse.take s = (next.drop p).reverse.take s := by
      have := List.prefix_iff_eq_take.1 hsuf.right
      rwa [hstake] at this
    rw [List.take_reverse, List.take_reverse, List.reverse_inj, List.drop_drop, List.drop_drop,
      List.length_drop, List.length_drop] at heq
    rw [show p + (current.length - p - s) = current.length - s by omega,
      show p + (next.length - p - s) = next.length - s by omega] at heq
    exact heq

theorem append_slice {α : Type} {start stop : Nat} (items : List α) (h : start ≤ stop) :
    items.take start ++ slice start stop items ++ items.drop stop = items := by
  unfold slice
  have htake : items.take start = (items.take stop).take start := by
    rw [List.take_take, Nat.min_eq_left h]
  rw [htake, List.take_append_drop, List.take_append_drop]

/-- **The parts of the document that an edit keeps and replaces.** -/
theorem edit_split :
    let current := elements.map (·.value)
    let next := segmentGraphemes nextText
    let p := commonPrefixLength current next
    let s := commonSuffixLength p current next
    ∃ middle values, elements = elements.take p ++ middle ++ elements.drop (elements.length - s) ∧
      next = (elements.take p).map (·.value) ++ values ++
        (elements.drop (elements.length - s)).map (·.value) ∧
      computeLocalTextEdit segmentGraphemes elements nextText =
        if middle = [] ∧ values = [] then none
        else some ⟨middle.map (·.id), TextReplica.anchorOf (elements.take p), values⟩ := by
  intro current next p s
  have hlen : current.length = elements.length := List.length_map _
  obtain ⟨hcur, hnext, hpre, hsuf⟩ := commonSuffixLength_spec p current next rfl
  have hanchor : ((if p > 0 then elements[p - 1]? else none).map (·.id)).getD ROOT_ID =
      TextReplica.anchorOf (elements.take p) := by
    unfold TextReplica.anchorOf
    congr 2
    rw [List.getLast?_eq_getElem?, List.length_take, Nat.min_eq_left (by omega)]
    split
    · rw [List.getElem?_take_of_lt (by omega)]
    · rw [List.getElem?_take_eq_none (by omega)]
  refine ⟨slice p (elements.length - s) elements, slice p (next.length - s) next,
    (append_slice elements (by omega)).symm, ?_, ?_⟩
  · rw [List.map_take, List.map_drop, ← hlen, hpre, hsuf]
    exact (append_slice next (by omega)).symm
  · rw [← hanchor, ← hlen]
    unfold computeLocalTextEdit
    simp only [List.length_eq_zero_iff, List.map_eq_nil_iff]
    rfl

end

/-! ## Applying the batches -/

/-- The identities from `identity` on are above everything that the replica knows. -/
structure Ahead (r : TextReplica) (clientId : JsString) (identity : Identity) : Prop where
  lamport : ∀ op ∈ r.ops, op.lamport ≤ identity.lamportClock
  counter : ∀ op ∈ r.ops, op.clientId = clientId → op.counter < identity.nextCounter

/-- A replica without unresolved operations that shows `elements` and can take an edit. -/
structure Editable (r : TextReplica) (clientId : JsString) (identity : Identity)
    (elements : List VisibleElement) : Prop where
  inv : TextReplica.Inv r
  resolved : r.getUnresolvedOperationIds = []
  ahead : Ahead r clientId identity
  visible : r.getVisibleElements = .ok elements

section

variable {clientId : JsString} {r r' : TextReplica} {identity : Identity} {op : TextOperation}

theorem Ahead.next (h : Ahead r clientId identity) (hops : r'.ops = insert op r.ops)
    (hcounter : op.counter = identity.nextCounter)
    (hlamport : op.lamport = identity.lamportClock + 1) : Ahead r' clientId identity.next where
  lamport o ho := by
    rw [hops] at ho
    show o.lamport ≤ identity.lamportClock + 1
    rcases ho with rfl | ho
    · omega
    · have := h.lamport o ho
      omega
  counter o ho hclient := by
    rw [hops] at ho
    show o.counter < identity.nextCounter + 1
    rcases ho with rfl | ho
    · omega
    · have := h.counter o ho hclient
      omega

/-- The next identity is new. -/
theorem Ahead.new (h : Ahead r clientId identity) (hinv : TextReplica.Inv r)
    (hv : ValidOperation op) (hclient : op.clientId = clientId)
    (hcounter : op.counter = identity.nextCounter) : ∀ o ∈ r.ops, o.opId ≠ op.opId := by
  intro o ho heq
  obtain ⟨hc, hn⟩ := (hinv.coherent.valid o ho).identity hv heq
  have := h.counter o ho (hc.trans hclient)
  omega

/-- **The deletes of an edit** take the range out of the document. -/
theorem Editable.deletes : ∀ {middle before after : List VisibleElement} {r : TextReplica}
    {identity identity' : Identity} {ops : List TextOperation},
    createDeletes clientId (middle.map (·.id)) identity = .ok (ops, identity') →
      Editable r clientId identity (before ++ middle ++ after) →
        ∃ r', r.applyAll ops = (r', .ok ()) ∧ Editable r' clientId identity' (before ++ after)
  | [], before, after, r, identity, identity', ops, h, he => by
    cases h
    rw [List.append_nil] at he
    exact ⟨r, rfl, he⟩
  | e :: middle, before, after, r, identity, identity', ops, h, he => by
    rw [List.map_cons] at h
    unfold createDeletes at h
    split at h
    · cases h
    · rename_i op hop
      obtain ⟨heq, hv⟩ := createDeleteOperation_ok hop
      split at h
      · cases h
      · rename_i rest middleIdentity hrest
        cases h
        have hvis := he.visible
        rw [List.append_assoc, List.cons_append] at hvis
        obtain ⟨r₁, hr₁, hinv₁, hres₁, hops₁, hvis₁⟩ := he.inv.apply_delete he.resolved hv
          (he.ahead.new he.inv hv (by rw [heq]; rfl) (by rw [heq]; rfl)) hvis (by rw [heq])
        have he₁ : Editable r₁ clientId identity.next (before ++ middle ++ after) :=
          ⟨hinv₁, hres₁, he.ahead.next hops₁ (by rw [heq]; rfl) (by rw [heq]; rfl),
            by rw [hvis₁, List.append_assoc]⟩
        obtain ⟨r₂, hr₂, he₂⟩ := Editable.deletes hrest he₁
        refine ⟨r₂, ?_, he₂⟩
        simp only [TextReplica.applyAll, hr₁, hr₂]

/-- **The inserts of an edit** put its graphemes where the range was. -/
theorem Editable.inserts : ∀ {values : List JsString} {before after : List VisibleElement}
    {r : TextReplica} {identity identity' : Identity} {ops : List TextOperation},
    createInserts clientId (TextReplica.anchorOf before) values identity = .ok (ops, identity') →
      Editable r clientId identity (before ++ after) →
        ∃ r' new, r.applyAll ops = (r', .ok ()) ∧ new.map (·.value) = values ∧
          Editable r' clientId identity' (before ++ new ++ after)
  | [], before, after, r, identity, identity', ops, h, he => by
    cases h
    refine ⟨r, [], rfl, rfl, ?_⟩
    rwa [List.append_nil]
  | value :: values, before, after, r, identity, identity', ops, h, he => by
    unfold createInserts at h
    split at h
    · cases h
    · rename_i op hop
      obtain ⟨heq, hv⟩ := createInsertOperation_ok hop
      split at h
      · cases h
      · rename_i rest middleIdentity hrest
        cases h
        have hlamport : ∀ o ∈ r.ops, o.lamport < op.lamport := by
          intro o ho
          have := he.ahead.lamport o ho
          rw [heq]
          show o.lamport < identity.lamportClock + 1
          omega
        obtain ⟨r₁, hr₁, hinv₁, hres₁, hops₁, hvis₁⟩ := he.inv.apply_insert he.resolved hv
          (he.ahead.new he.inv hv (by rw [heq]; rfl) (by rw [heq]; rfl)) hlamport he.visible
          (by rw [heq])
        have he₁ : Editable r₁ clientId identity.next
            ((before ++ [⟨op.opId, op.value⟩]) ++ after) :=
          ⟨hinv₁, hres₁, he.ahead.next hops₁ (by rw [heq]; rfl) (by rw [heq]; rfl),
            by rw [hvis₁, List.append_assoc, List.singleton_append]⟩
        have hanchor : TextReplica.anchorOf (before ++ [⟨op.opId, op.value⟩]) = op.opId := by
          simp [TextReplica.anchorOf]
        rw [← hanchor] at hrest
        obtain ⟨r₂, new, hr₂, hnew, he₂⟩ := Editable.inserts hrest he₁
        refine ⟨r₂, ⟨op.opId, op.value⟩ :: new, ?_, ?_, ?_⟩
        · simp only [TextReplica.applyAll, hr₁, hr₂]
        · rw [List.map_cons, hnew, heq]
        · rwa [List.append_assoc before, List.singleton_append] at he₂

theorem applyAll_append : ∀ {ops ops' : List TextOperation} {r r' : TextReplica},
    r.applyAll ops = (r', .ok ()) → r.applyAll (ops ++ ops') = r'.applyAll ops'
  | [], _, _, _, h => by
    cases h
    rfl
  | op :: ops, ops', r, r', h => by
    unfold TextReplica.applyAll at h
    split at h
    · cases h
    · rename_i r₁ status hr
      simp only [List.cons_append, TextReplica.applyAll, hr]
      exact applyAll_append h

end

/-! ## The document after a local edit -/

/-- The operations that `persistLocalTextEdit` builds for the edit from `elements` to
`nextText`; none when there is no edit. -/
def Database.Builds (db : Database) (segmentGraphemes : JsString → List JsString)
    (documentId : JsString) (elements : List VisibleElement) (nextText timestamp : JsString)
    (outboxCreatedAt : Int) (operations : List TextOperation) : Prop :=
  match computeLocalTextEdit segmentGraphemes elements nextText with
  | none => operations = []
  | some edit => ∃ db', db.persistLocalTextEdit documentId edit timestamp outboxCreatedAt =
      .ok (operations, db')

theorem persistLocalTextEdit_created {db db' : Database} {documentId timestamp : JsString}
    {edit : LocalTextEdit} {outboxCreatedAt : Int} {ops : List TextOperation} {m : ClientMetaRecord}
    (hm : db.clientMeta = some m) (hedit : ¬ (edit.deleteTargetIds = [] ∧ edit.insertValues = []))
    (h : db.persistLocalTextEdit documentId edit timestamp outboxCreatedAt = .ok (ops, db')) :
    ∃ deletes middle inserts identity, ops = deletes ++ inserts ∧
      createDeletes m.clientId edit.deleteTargetIds ⟨m.nextCounter, m.lamportClock⟩ =
        .ok (deletes, middle) ∧
      createInserts m.clientId edit.insertAfterId edit.insertValues middle =
        .ok (inserts, identity) := by
  unfold persistLocalTextEdit at h
  rw [if_neg (by simpa using hedit), hm] at h
  simp only at h
  split at h
  · cases h
  · split at h
    · cases h
    · rename_i created identity hcreated
      have hops : ops = created := by
        split at h
        · cases h
        · split at h
          · cases h
          · cases h
            rfl
      subst hops
      unfold createOperations at hcreated
      split at hcreated
      · cases hcreated
      · rename_i deletes middle hdeletes
        split at hcreated
        · cases hcreated
        · rename_i inserts identity' hinserts
          cases hcreated
          exact ⟨deletes, middle, inserts, _, rfl, hdeletes, hinserts⟩

/-- The operations of an edit apply without a throw, leave nothing unresolved, and turn the shown
elements into the graphemes of the requested text. -/
theorem Database.Builds.applies {segmentGraphemes : JsString → List JsString}
    (hsegment : Segments segmentGraphemes) {r : TextReplica} (hinv : TextReplica.Inv r)
    (hres : r.getUnresolvedOperationIds = []) {elements : List VisibleElement}
    (hv : r.getVisibleElements = .ok elements) {db : Database} {m : ClientMetaRecord}
    (hm : db.clientMeta = some m) (hlamport : ∀ op ∈ r.ops, op.lamport ≤ m.lamportClock)
    (hfresh : ∀ op ∈ r.ops, op.clientId = m.clientId → op.counter < m.nextCounter)
    {documentId nextText timestamp : JsString} {outboxCreatedAt : Int}
    {operations : List TextOperation}
    (hbuilt : db.Builds segmentGraphemes documentId elements nextText timestamp outboxCreatedAt
      operations) :
    let p := commonPrefixLength (elements.map (·.value)) (segmentGraphemes nextText)
    let s := commonSuffixLength p (elements.map (·.value)) (segmentGraphemes nextText)
    ∃ r' elements' new, r.applyAll operations = (r', .ok ()) ∧
      r'.getUnresolvedOperationIds = [] ∧ r'.materialize = .ok nextText ∧
      r'.getVisibleElements = .ok elements' ∧
      elements'.map (·.value) = segmentGraphemes nextText ∧
      elements' = elements.take p ++ new ++ elements.drop (elements.length - s) := by
  intro p s
  have htext : ∀ {r' : TextReplica} {shown : List VisibleElement},
      r'.getVisibleElements = .ok shown → shown.map (·.value) = segmentGraphemes nextText →
        r'.materialize = .ok nextText := by
    intro r' shown hshown hvalues
    unfold TextReplica.materialize
    rw [hshown]
    show Except.ok (shown.map (·.value)).flatten = _
    rw [hvalues, hsegment.flatten]
  obtain ⟨middle, values, helements, hnext, hedit⟩ :=
    @edit_split segmentGraphemes elements nextText
  unfold Database.Builds at hbuilt
  rw [hedit] at hbuilt
  split at hbuilt
  · -- nothing to do
    rename_i hnone
    have hempty : middle = [] ∧ values = [] := by
      by_contra hne
      rw [if_neg hne] at hnone
      cases hnone
    rw [hempty.1] at helements
    rw [hempty.2, List.append_nil] at hnext
    have hvalues : elements.map (·.value) = segmentGraphemes nextText := by
      have hshown := congrArg (List.map (·.value)) helements
      rw [List.append_nil, List.map_append] at hshown
      exact hshown.trans hnext.symm
    subst hbuilt
    exact ⟨r, elements, [], rfl, hres, htext hv hvalues, hv, hvalues, helements⟩
  · rename_i edit hsome
    obtain ⟨db', hp⟩ := hbuilt
    have hne : ¬ (middle = [] ∧ values = []) := by
      intro hempty
      rw [if_pos hempty] at hsome
      cases hsome
    rw [if_neg hne] at hsome
    cases hsome
    obtain ⟨deletes, middleIdentity, inserts, identity, rfl, hdeletes, hinserts⟩ :=
      persistLocalTextEdit_created hm (by simpa using hne) hp
    have he : Editable r m.clientId ⟨m.nextCounter, m.lamportClock⟩
        (elements.take p ++ middle ++ elements.drop (elements.length - s)) :=
      ⟨hinv, hres, ⟨hlamport, hfresh⟩, by rw [← helements]; exact hv⟩
    obtain ⟨r₁, hr₁, he₁⟩ := Editable.deletes hdeletes he
    obtain ⟨r₂, new, hr₂, hnew, he₂⟩ := Editable.inserts hinserts he₁
    have hvalues : (elements.take p ++ new ++ elements.drop (elements.length - s)).map (·.value) =
        segmentGraphemes nextText := by
      rw [List.map_append, List.map_append, hnew]
      exact hnext.symm
    refine ⟨r₂, _, new, ?_, he₂.resolved, htext he₂.visible hvalues, he₂.visible, hvalues, rfl⟩
    rw [applyAll_append hr₁, hr₂]

/-- **A local edit produces exactly the requested text.**  On a replica without unresolved
operations, and with identities above everything it knows, the operations of an edit apply without
a throw, leave nothing unresolved, show the graphemes of the requested text, and keep the elements
before and after the replaced range. -/
theorem local_edit_exact {segmentGraphemes : JsString → List JsString}
    (hsegment : Segments segmentGraphemes) {r : TextReplica} (hr : r.Reachable)
    (hres : r.getUnresolvedOperationIds = []) {elements : List VisibleElement}
    (hv : r.getVisibleElements = .ok elements) {db : Database} {m : ClientMetaRecord}
    (hm : db.clientMeta = some m) (hlamport : ∀ op ∈ r.ops, op.lamport ≤ m.lamportClock)
    (hfresh : ∀ op ∈ r.ops, op.clientId = m.clientId → op.counter < m.nextCounter)
    {documentId nextText timestamp : JsString} {outboxCreatedAt : Int}
    {operations : List TextOperation}
    (hbuilt : db.Builds segmentGraphemes documentId elements nextText timestamp outboxCreatedAt
      operations) :
    let p := commonPrefixLength (elements.map (·.value)) (segmentGraphemes nextText)
    let s := commonSuffixLength p (elements.map (·.value)) (segmentGraphemes nextText)
    ∃ r' elements' new, r.applyAll operations = (r', .ok ()) ∧
      r'.getUnresolvedOperationIds = [] ∧ r'.materialize = .ok nextText ∧
      r'.getVisibleElements = .ok elements' ∧
      elements'.map (·.value) = segmentGraphemes nextText ∧
      elements' = elements.take p ++ new ++ elements.drop (elements.length - s) := by
  exact hbuilt.applies hsegment hr.inv hres hv hm hlamport hfresh

/-- A grapheme is typed after an element that has an older child, which is deleted. -/
theorem local_edit_exact_typed :
    let a : TextOperation := .insert ⟨js "A:1", js "A", 1, 1, ROOT_ID, js "a"⟩
    let b : TextOperation := .insert ⟨js "A:2", js "A", 2, 2, js "A:1", js "b"⟩
    let z : TextOperation := .insert ⟨js "B:1", js "B", 1, 5, js "A:1", js "z"⟩
    let dz : TextOperation := .delete ⟨js "B:2", js "B", 2, 6, js "B:1"⟩
    let r := TextReplica.empty.applyEach [a, b, z, dz]
    let x : TextOperation := .insert ⟨js "A:3", js "A", 3, 7, js "A:1", js "x"⟩
    ∃ r', r.materialize = .ok (js "ab") ∧ r.applyAll [x] = (r', .ok ()) ∧
      r'.materialize = .ok (js "axb") := by
  intro a b z dz r x
  have hr : r.Reachable := (((TextReplica.Reachable.empty.apply a).apply b).apply z).apply dz
  have hops : ∀ op ∈ r.ops, op.lamport ≤ 6 ∧ (op.clientId = js "A" → op.counter < 3) := by
    intro op hop
    have hmem : op ∈ r.knownOperations.values := InsMap.mem_values.2 ⟨op.opId, hop⟩
    have hall : ∀ op ∈ r.knownOperations.values,
        op.lamport ≤ 6 ∧ (op.clientId = js "A" → op.counter < 3) := by
      decide +kernel
    exact hall op hmem
  let db : Database := { Database.empty with
    clientMeta := some ⟨js "A", 3, 6⟩
    documents := Database.empty.documents.put ⟨js "d", js "title", js "now", js "now"⟩ }
  have hbuilt : db.Builds (fun text => text.map ([·])) (js "d") [⟨js "A:1", js "a"⟩, ⟨js "A:2", js "b"⟩] (js "axb")
      (js "now") 0 [x] := ⟨_, rfl⟩
  obtain ⟨r', elements', new, happlied, -, htext, -⟩ := local_edit_exact segments_codeUnits hr
    (by decide +kernel) (by decide +kernel) (rfl : db.clientMeta = _)
    (fun op hop => (hops op hop).1) (fun op hop => (hops op hop).2) hbuilt
  exact ⟨r', by decide +kernel, happlied, htext⟩

/-! ## Submitting the current text again -/

theorem commonPrefixLength_self : ∀ xs : List JsString, commonPrefixLength xs xs = xs.length
  | [] => rfl
  | x :: xs => by
    unfold commonPrefixLength
    rw [if_pos rfl, commonPrefixLength_self xs, List.length_cons]

/-- There is no edit exactly when the graphemes of the new text are the visible values. -/
theorem computeLocalTextEdit_eq_none_iff {segmentGraphemes : JsString → List JsString}
    {elements : List VisibleElement} {nextText : JsString} :
    computeLocalTextEdit segmentGraphemes elements nextText = none ↔
      segmentGraphemes nextText = elements.map (·.value) := by
  obtain ⟨middle, values, helements, hnext, hedit⟩ :=
    @edit_split segmentGraphemes elements nextText
  have hshown := congrArg (List.map (·.value)) helements
  rw [List.map_append, List.map_append] at hshown
  rw [hedit]
  constructor
  · intro hnone
    have hempty : middle = [] ∧ values = [] := by
      by_contra hne
      rw [if_neg hne] at hnone
      cases hnone
    rw [hempty.1] at hshown
    rw [hempty.2] at hnext
    exact hnext.trans hshown.symm
  · intro hsame
    rw [hsame, commonPrefixLength_self, List.length_map, List.take_length] at helements hnext
    have hlength := congrArg List.length helements
    have hlength' := congrArg List.length hnext
    simp only [List.length_append, List.length_map] at hlength hlength'
    exact if_pos ⟨List.eq_nil_of_length_eq_zero (by omega),
      List.eq_nil_of_length_eq_zero (by omega)⟩

theorem createDeletes_length {clientId : JsString} : ∀ {targetIds : List JsString}
    {identity identity' : Identity} {ops : List TextOperation},
      createDeletes clientId targetIds identity = .ok (ops, identity') → ops.length = targetIds.length
  | [], _, _, _, h => by
    cases h
    rfl
  | _ :: targetIds, identity, identity', ops, h => by
    unfold createDeletes at h
    split at h
    · cases h
    · split at h
      · cases h
      · rename_i hrest
        cases h
        simp [createDeletes_length hrest]

theorem createInserts_length {clientId : JsString} : ∀ {values : List JsString} {anchor : JsString}
    {identity identity' : Identity} {ops : List TextOperation},
      createInserts clientId anchor values identity = .ok (ops, identity') →
        ops.length = values.length
  | [], _, _, _, _, h => by
    cases h
    rfl
  | _ :: values, anchor, identity, identity', ops, h => by
    unfold createInserts at h
    split at h
    · cases h
    · split at h
      · cases h
      · rename_i hrest
        cases h
        simp [createInserts_length hrest]

/-- An edit that is written makes operations. -/
theorem persistLocalTextEdit_ne_nil {db db' : Database} {documentId timestamp : JsString}
    {edit : LocalTextEdit} {outboxCreatedAt : Int} {ops : List TextOperation}
    (hedit : ¬ (edit.deleteTargetIds = [] ∧ edit.insertValues = []))
    (h : db.persistLocalTextEdit documentId edit timestamp outboxCreatedAt = .ok (ops, db')) :
    ops ≠ [] := by
  obtain ⟨m, hm⟩ : ∃ m, db.clientMeta = some m := by
    cases hm : db.clientMeta with
    | some m => exact ⟨m, rfl⟩
    | none =>
      unfold persistLocalTextEdit at h
      rw [if_neg (by simpa using hedit), hm] at h
      cases h
  obtain ⟨deletes, middle, inserts, identity, rfl, hdeletes, hinserts⟩ :=
    persistLocalTextEdit_created hm hedit h
  have hd := createDeletes_length hdeletes
  have hi := createInserts_length hinserts
  intro hnil
  obtain ⟨rfl, rfl⟩ := List.append_eq_nil_iff.1 hnil
  exact hedit ⟨List.eq_nil_of_length_eq_zero hd.symm, List.eq_nil_of_length_eq_zero hi.symm⟩

/-- **When the current text is submitted again.**  No edit is computed, and no operation created,
exactly when the graphemes of the text are the values of the elements that show it. -/
theorem resubmit_iff {segmentGraphemes : JsString → List JsString} {c : LocalDocumentController}
    (hr : c.replica.Reachable) : ∃ snapshot, c.getSnapshot = .ok snapshot ∧
      (computeLocalTextEdit segmentGraphemes snapshot.visibleElements snapshot.text = none ↔
        segmentGraphemes snapshot.text = snapshot.visibleElements.map (·.value)) ∧
      ∀ db env c' db' result,
        c.replaceTextNow segmentGraphemes db env snapshot.text = (c', db', .ok result) →
          (result.operations = [] ↔
            segmentGraphemes snapshot.text = snapshot.visibleElements.map (·.value)) := by
  obtain ⟨elements, hv⟩ := hr.inv.visible_ok
  obtain ⟨text, ht⟩ := hr.inv.materialize_ok
  have hsnapshot : c.getSnapshot = .ok ⟨c.documentId, c.title, text, elements⟩ := by
    unfold LocalDocumentController.getSnapshot
    rw [ht, hv]
  refine ⟨_, hsnapshot, computeLocalTextEdit_eq_none_iff, ?_⟩
  intro db env c' db' result h
  rw [← computeLocalTextEdit_eq_none_iff]
  unfold LocalDocumentController.replaceTextNow at h
  rw [hv] at h
  simp only at h
  split at h
  · rename_i hnone
    rw [hsnapshot] at h
    obtain ⟨-, h⟩ := Prod.mk.inj h
    obtain ⟨-, h⟩ := Prod.mk.inj h
    rw [← Except.ok.inj h]
    exact ⟨fun _ => hnone, fun _ => rfl⟩
  · rename_i edit hsome
    have hne : ¬ (edit.deleteTargetIds = [] ∧ edit.insertValues = []) := by
      intro hempty
      unfold computeLocalTextEdit at hsome
      simp only at hsome
      split at hsome
      · cases hsome
      · rename_i hne
        cases hsome
        exact hne (by simpa using hempty)
    split at h
    · cases h
    · rename_i operations db₁ hp
      have hops : result.operations ≠ [] := by
        split at h
        · cases h
        · obtain ⟨-, h⟩ := Prod.mk.inj h
          obtain ⟨-, h⟩ := Prod.mk.inj h
          obtain ⟨snapshot, -, rfl⟩ := exists_ok_of_map h
          exact persistLocalTextEdit_ne_nil hne hp
      rw [hsome]
      exact ⟨fun h => absurd h hops, fun h => by cases h⟩

/-- Two clients type at the same time, and each element is a grapheme of the text. -/
theorem resubmit_iff_letters :
    let a : TextOperation := .insert ⟨js "A:1", js "A", 1, 1, ROOT_ID, js "a"⟩
    let b : TextOperation := .insert ⟨js "B:1", js "B", 1, 1, ROOT_ID, js "b"⟩
    let c : LocalDocumentController :=
      ⟨TextReplica.empty.applyEach [a, b], js "d", js "A", js "title", 1000, false, 0⟩
    ∃ snapshot, c.getSnapshot = .ok snapshot ∧ snapshot.text = js "ab" ∧
      computeLocalTextEdit (fun text => text.map ([·])) snapshot.visibleElements snapshot.text =
        none := by
  intro a b c
  have hr : c.replica.Reachable := (TextReplica.Reachable.empty.apply a).apply b
  obtain ⟨snapshot, hsnapshot, hiff, -⟩ :=
    @resubmit_iff (fun text => text.map ([·])) c hr
  have hshown : c.getSnapshot =
      .ok ⟨js "d", js "title", js "ab", [⟨js "A:1", js "a"⟩, ⟨js "B:1", js "b"⟩]⟩ := by
    decide +kernel
  rw [hshown] at hsnapshot
  rw [← Except.ok.inj hsnapshot] at hiff
  exact ⟨_, hshown, rfl, hiff.2 (by decide +kernel)⟩

/-- A segmenter that keeps a combining acute accent with what precedes it. -/
def combiningSegments : JsString → List JsString
  | [] => []
  | c :: text =>
    match combiningSegments text with
    | (accent :: rest) :: segments =>
      if accent = 769 then (c :: accent :: rest) :: segments
      else [c] :: (accent :: rest) :: segments
    | segments => [c] :: segments

theorem segments_combiningSegments : Segments combiningSegments where
  nonempty text := by
    induction text with
    | nil =>
      intro s hs
      cases hs
    | cons c text ih =>
      intro s hs
      unfold combiningSegments at hs
      split at hs
      · rename_i accent rest segments heq
        rw [heq] at ih
        split at hs <;> grind
      · grind
  flatten text := by
    induction text with
    | nil => rfl
    | cons c text ih =>
      unfold combiningSegments
      split
      · rename_i accent rest segments heq
        rw [heq] at ih
        split <;> simp_all
      · simp_all

/-- Two clients type at the same time, one the letter and one the accent: the text shows one
grapheme, and submitting it again deletes both elements and creates a third. -/
theorem resubmit_recreates :
    let a : TextOperation := .insert ⟨js "A:1", js "A", 1, 1, ROOT_ID, js "e"⟩
    let b : TextOperation := .insert ⟨js "B:1", js "B", 1, 1, ROOT_ID, [769]⟩
    let r := TextReplica.empty.applyEach [a, b]
    Segments combiningSegments ∧ r.Reachable ∧
      ∃ elements, r.getVisibleElements = .ok elements ∧ r.materialize = .ok [101, 769] ∧
        computeLocalTextEdit combiningSegments elements [101, 769] =
          some ⟨[js "A:1", js "B:1"], ROOT_ID, [[101, 769]]⟩ := by
  intro a b r
  refine ⟨segments_combiningSegments, (TextReplica.Reachable.empty.apply a).apply b,
    [⟨js "A:1", js "e"⟩, ⟨js "B:1", [769]⟩], ?_, ?_, ?_⟩
  · decide +kernel
  · decide +kernel
  · decide +kernel

end LocalFirst
