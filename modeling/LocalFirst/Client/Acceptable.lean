import LocalFirst.Client.EditExact

/-!
# What the server accepts of a local edit

The write path of the client bounds nothing: values come from the segmenter, counters and Lamport
values from increments, anchors and targets from remote identities.  The wire schema bounds every
field.

* `length_makeOperationId` — an identity of a client named by a UUID is short enough.
* `textOperationSchema_insert`, `textOperationSchema_delete` — what the schema asks of an operation
  that is valid.
* `edit_acceptable_iff` — every operation of an edit is accepted exactly when no grapheme of the
  new text is longer than the schema allows.
-/

set_option autoImplicit false

namespace LocalFirst

open Database

/-! ## Identifiers -/

def isHexDigit (c : CodeUnit) : Bool :=
  (48 ≤ c.val && c.val ≤ 57) || (65 ≤ c.val && c.val ≤ 70) || (97 ≤ c.val && c.val ≤ 102)

/-- `CANONICAL_UUID_PATTERN.test(id)`, of `apps/web/src/workspace/document-route.ts`: the version is
a digit from 1 to 8, and the variant one of 8, 9, a and b.  Identifiers that `crypto.randomUUID`
makes are of this form. -/
def isCanonicalUuid (id : JsString) : Bool :=
  id.length == 36 && id.zipIdx.all fun (c, i) =>
    if i = 8 ∨ i = 13 ∨ i = 18 ∨ i = 23 then c == 45
    else if i = 14 then 49 ≤ c.val && c.val ≤ 56
    else if i = 19 then c == 56 || c == 57 || c == 65 || c == 66 || c == 97 || c == 98
    else isHexDigit c

def MAX_ROUTE_DOCUMENT_ID_LENGTH : Nat := 64

def isValidWorkspaceDocumentId (id : JsString) : Bool :=
  if id = DEFAULT_DOCUMENT_ID then true
  else if id.length = 0 ∨ id.length > MAX_ROUTE_DOCUMENT_ID_LENGTH then false
  else isCanonicalUuid id

theorem length_of_isCanonicalUuid {id : JsString} (h : isCanonicalUuid id = true) :
    id.length = 36 := by
  simp only [isCanonicalUuid, Bool.and_eq_true, beq_iff_eq] at h
  exact h.1

/-- The document ids of the application pass the schema. -/
theorem boundedString_documentId {id : JsString} (h : isValidWorkspaceDocumentId id = true) :
    boundedString MAX_DOCUMENT_ID_LENGTH id = true := by
  unfold isValidWorkspaceDocumentId at h
  split at h
  · rename_i hdefault
    rw [hdefault]
    decide
  · split at h
    · cases h
    · have hlength := length_of_isCanonicalUuid h
      refine boundedString_of_length (by omega) ?_
      rw [hlength, MAX_DOCUMENT_ID_LENGTH]
      omega

/-- The length of an operation id. -/
theorem length_makeOperationId {clientId : JsString} {counter : Int} (hn : 1 ≤ counter)
    (hmax : counter ≤ MAX_SAFE_INTEGER) :
    1 ≤ (makeOperationId clientId counter).length ∧
      (makeOperationId clientId counter).length ≤ clientId.length + 17 := by
  obtain ⟨n, rfl⟩ := Int.eq_ofNat_of_zero_le (by omega : 0 ≤ counter)
  have hcolon : (js ":").length = 1 := by decide
  have hdigits : (decimal (n : Int)).length ≤ 16 := by
    refine (length_decimal_le (by omega)).2 ?_
    simp only [MAX_SAFE_INTEGER] at hmax
    omega
  simp only [makeOperationId, List.length_append]
  omega

/-! ## The schema of an operation -/

theorem ValidOperation.schema_identity {op : TextOperation} (hv : ValidOperation op)
    (hclient : op.clientId.length = 36) :
    boundedString MAX_OPERATION_ID_LENGTH op.opId = true ∧
      boundedString MAX_CLIENT_ID_LENGTH op.clientId = true ∧
      isPositiveSafeInteger op.counter = true ∧ isPositiveSafeInteger op.lamport = true := by
  obtain ⟨-, hcounter, hlamport, hid, -⟩ := validateOperation_iff.1 hv
  have hlength := @length_makeOperationId op.clientId op.counter hcounter.1 hcounter.2
  rw [← hid] at hlength
  refine ⟨?_, ?_, isPositiveSafeInteger_iff.2 hcounter, isPositiveSafeInteger_iff.2 hlamport⟩
  · refine boundedString_of_length hlength.1 ?_
    rw [MAX_OPERATION_ID_LENGTH]
    omega
  · refine boundedString_of_length (by omega) ?_
    rw [hclient, MAX_CLIENT_ID_LENGTH]
    omega

/-- What the schema still asks of a valid insert. -/
theorem textOperationSchema_insert {op : InsertOperation} (hv : ValidOperation (.insert op))
    (hclient : op.clientId.length = 36)
    (hafter : boundedString MAX_ELEMENT_ID_LENGTH op.afterId = true) :
    textOperationSchema (.insert op) = true ↔ codePoints op.value ≤ MAX_OPERATION_VALUE_LENGTH := by
  obtain ⟨hid, hcl, hcounter, hlamport⟩ := hv.schema_identity hclient
  have hvalue := List.length_pos_iff.2 hv.value_ne_nil
  simp only [TextOperation.opId_insert, TextOperation.clientId_insert,
    TextOperation.counter_insert, TextOperation.lamport_insert] at hid hcl hcounter hlamport
  simp only [textOperationSchema, hid, hcl, hcounter, hlamport, hafter, Bool.true_and,
    boundedString_iff]
  omega

/-- The schema asks nothing more of a valid delete. -/
theorem textOperationSchema_delete {op : DeleteOperation} (hv : ValidOperation (.delete op))
    (hclient : op.clientId.length = 36)
    (htarget : boundedString MAX_ELEMENT_ID_LENGTH op.targetId = true) :
    textOperationSchema (.delete op) = true := by
  obtain ⟨hid, hcl, hcounter, hlamport⟩ := hv.schema_identity hclient
  simp only [TextOperation.opId_delete, TextOperation.clientId_delete,
    TextOperation.counter_delete, TextOperation.lamport_delete] at hid hcl hcounter hlamport
  simp only [textOperationSchema, hid, hcl, hcounter, hlamport, htarget, Bool.true_and]

/-- The value of an admitted insert is short enough. -/
theorem codePoints_value_le {op : InsertOperation} (h : textOperationSchema (.insert op) = true) :
    codePoints op.value ≤ MAX_OPERATION_VALUE_LENGTH := by
  simp only [textOperationSchema, Bool.and_eq_true] at h
  exact (boundedString_iff.1 h.2).2

/-- The identity that an admitted operation has can be an anchor and a target. -/
theorem boundedString_opId {op : TextOperation} (h : textOperationSchema op = true) :
    boundedString MAX_ELEMENT_ID_LENGTH op.opId = true := by
  cases op with
  | insert op =>
    simp only [textOperationSchema, Bool.and_eq_true] at h
    exact h.1.1.1.1.1
  | delete op =>
    simp only [textOperationSchema, Bool.and_eq_true] at h
    exact h.1.1.1.1

/-! ## The operations of an edit -/

/-- The inserts of an edit carry its values. -/
theorem createInserts_values {clientId : JsString} : ∀ {values : List JsString} {anchor : JsString}
    {identity identity' : Identity} {ops : List TextOperation},
      createInserts clientId anchor values identity = .ok (ops, identity') →
        ∀ v, v ∈ values ↔ ∃ i : InsertOperation, .insert i ∈ ops ∧ i.value = v
  | [], _, _, _, _, h, v => by
    cases h
    simp
  | value :: values, anchor, identity, identity', ops, h, v => by
    unfold createInserts at h
    split at h
    · cases h
    · rename_i op hop
      obtain ⟨heq, -⟩ := createInsertOperation_ok hop
      split at h
      · cases h
      · rename_i rest identity'' hrest
        cases h
        have hvalue : op.value = value := by rw [heq]
        simp only [List.mem_cons, createInserts_values hrest v, TextOperation.insert.injEq]
        constructor
        · intro hor
          rcases hor with rfl | ⟨i, hi, hv⟩
          · exact ⟨op, Or.inl rfl, hvalue⟩
          · exact ⟨i, Or.inr hi, hv⟩
        · rintro ⟨i, hi, hv⟩
          rcases hi with rfl | hi
          · exact Or.inl (hv.symm.trans hvalue)
          · exact Or.inr ⟨i, hi, hv⟩

/-- The graphemes of the new text that are neither in the start nor in the end that it shares with
the elements. -/
def insertedGraphemes (segmentGraphemes : JsString → List JsString)
    (elements : List VisibleElement) (nextText : JsString) : List JsString :=
  let current := elements.map (·.value)
  let next := segmentGraphemes nextText
  let p := commonPrefixLength current next
  slice p (next.length - commonSuffixLength p current next) next

theorem mem_of_mem_insertedGraphemes {segmentGraphemes : JsString → List JsString}
    {elements : List VisibleElement} {nextText g : JsString}
    (h : g ∈ insertedGraphemes segmentGraphemes elements nextText) :
    g ∈ segmentGraphemes nextText := by
  obtain ⟨i, -, -, hi⟩ := mem_slice.1 h
  exact List.mem_of_getElem? hi

/-- A grapheme that an edit does not insert is the value of an element that it keeps. -/
theorem mem_segmentGraphemes {segmentGraphemes : JsString → List JsString}
    {elements : List VisibleElement} {nextText g : JsString} (h : g ∈ segmentGraphemes nextText) :
    g ∈ insertedGraphemes segmentGraphemes elements nextText ∨ ∃ e ∈ elements, e.value = g := by
  have hspec := commonSuffixLength_spec _ (elements.map (·.value)) (segmentGraphemes nextText) rfl
  obtain ⟨-, hnext, hpre, hsuf⟩ := hspec
  have hkept : ∀ {values : List JsString}, values.Sublist (elements.map (·.value)) → g ∈ values →
      ∃ e ∈ elements, e.value = g := fun hsub hg => List.mem_map.1 (hsub.subset hg)
  rw [← append_slice (segmentGraphemes nextText) (Nat.le_sub_of_add_le hnext), ← hpre, ← hsuf,
    List.mem_append, List.mem_append] at h
  rcases h with (hstart | hmiddle) | hend
  · exact Or.inr (hkept (List.take_sublist _ _) hstart)
  · exact Or.inl hmiddle
  · exact Or.inr (hkept (List.drop_sublist _ _) hend)

theorem insertedGraphemes_none {segmentGraphemes : JsString → List JsString}
    {elements : List VisibleElement} {nextText : JsString}
    (h : computeLocalTextEdit segmentGraphemes elements nextText = none) :
    insertedGraphemes segmentGraphemes elements nextText = [] := by
  unfold computeLocalTextEdit at h
  simp only at h
  split at h
  · rename_i hempty
    exact List.length_eq_zero_iff.1 hempty.2
  · cases h

theorem insertedGraphemes_some {segmentGraphemes : JsString → List JsString}
    {elements : List VisibleElement} {nextText : JsString} {edit : LocalTextEdit}
    (h : computeLocalTextEdit segmentGraphemes elements nextText = some edit) :
    ¬ (edit.deleteTargetIds = [] ∧ edit.insertValues = []) ∧
      edit.insertValues = insertedGraphemes segmentGraphemes elements nextText ∧
      (∀ t ∈ edit.deleteTargetIds, ∃ e ∈ elements, e.id = t) ∧
      (edit.insertAfterId = ROOT_ID ∨ ∃ e ∈ elements, e.id = edit.insertAfterId) := by
  unfold computeLocalTextEdit at h
  simp only at h
  split at h
  · cases h
  · rename_i hne
    cases h
    refine ⟨by simpa using hne, rfl, fun t ht => ?_, ?_⟩
    · obtain ⟨e, he, rfl⟩ := List.mem_map.1 ht
      obtain ⟨i, -, -, hi⟩ := mem_slice.1 he
      exact ⟨e, List.mem_of_getElem? hi, rfl⟩
    · simp only
      cases hprevious : (if commonPrefixLength (elements.map (·.value))
          (segmentGraphemes nextText) > 0 then elements[commonPrefixLength (elements.map (·.value))
            (segmentGraphemes nextText) - 1]? else none) with
      | none => exact Or.inl rfl
      | some e =>
        split at hprevious
        · exact Or.inr ⟨e, List.mem_of_getElem? hprevious, rfl⟩
        · cases hprevious

/-- What an edit writes: valid operations that carry the inserted graphemes, of which the schema
still checks the length of a value. -/
theorem Database.Builds.written {segmentGraphemes : JsString → List JsString} {r : TextReplica}
    (hr : r.Reachable) (hadmitted : ∀ op ∈ r.ops, textOperationSchema op = true)
    {elements : List VisibleElement} (hv : r.getVisibleElements = .ok elements) {db : Database}
    {m : ClientMetaRecord} (hm : db.clientMeta = some m)
    (hclient : isCanonicalUuid m.clientId = true) {documentId nextText timestamp : JsString}
    {outboxCreatedAt : Int} {operations : List TextOperation}
    (hbuilt : db.Builds segmentGraphemes documentId elements nextText timestamp outboxCreatedAt
      operations) :
    (∀ op ∈ operations, ValidOperation op) ∧
    (∀ g, g ∈ insertedGraphemes segmentGraphemes elements nextText ↔
      ∃ i : InsertOperation, .insert i ∈ operations ∧ i.value = g) ∧
    (∀ i : InsertOperation, .insert i ∈ operations →
      (textOperationSchema (.insert i) = true ↔ codePoints i.value ≤ MAX_OPERATION_VALUE_LENGTH)) ∧
    ∀ d : DeleteOperation, .delete d ∈ operations → textOperationSchema (.delete d) = true := by
  unfold Database.Builds at hbuilt
  split at hbuilt
  · rename_i hnone
    rw [hbuilt, insertedGraphemes_none hnone]
    simp
  · rename_i edit hsome
    obtain ⟨db', hp⟩ := hbuilt
    obtain ⟨hne, hvalues, htargets, hanchor⟩ := insertedGraphemes_some hsome
    obtain ⟨deletes, middle, inserts, identity, hops, hdeletes, hinserts⟩ :=
      persistLocalTextEdit_created hm hne hp
    obtain ⟨hcreated, hnoinsert, htarget⟩ := createDeletes_spec hdeletes
    obtain ⟨hcreated', hnodelete, hchained⟩ := createInserts_spec hinserts
    have hcarried := createInserts_values hinserts
    rw [hvalues] at hcarried
    have hall := hcreated.append hcreated'
    rw [← hops] at hall
    have hlength : ∀ op ∈ operations, op.clientId.length = 36 := by
      intro op hop
      rw [hall.client op hop]
      exact length_of_isCanonicalUuid hclient
    have hinsert : ∀ i : InsertOperation, .insert i ∈ operations ↔ .insert i ∈ inserts := by
      intro i
      rw [hops, List.mem_append]
      exact or_iff_right (hnoinsert i)
    have hdelete : ∀ d : DeleteOperation, .delete d ∈ operations ↔ .delete d ∈ deletes := by
      intro d
      rw [hops, List.mem_append]
      exact or_iff_left (hnodelete d)
    -- what an edit refers to is known, and admitted
    have hknown : ∀ e ∈ elements, boundedString MAX_ELEMENT_ID_LENGTH e.id = true := by
      intro e he
      obtain ⟨op, hop, hid, -⟩ := hr.inv.visible_insert hv he
      rw [← hid]
      exact boundedString_opId (hadmitted _ hop)
    have hafter : ∀ i : InsertOperation, .insert i ∈ inserts →
        boundedString MAX_ELEMENT_ID_LENGTH i.afterId = true := by
      intro i hi
      rcases hchained i hi with hstart | ⟨j, hj, hid, -⟩
      · rw [hstart]
        rcases hanchor with hroot | ⟨e, he, hid⟩
        · rw [hroot]
          decide
        · rw [← hid]
          exact hknown e he
      · rw [← hid]
        have hmem := (hinsert j).2 hj
        exact ((hall.valid _ hmem).schema_identity (hlength _ hmem)).1
    refine ⟨hall.valid, fun g => (hcarried g).trans ?_, fun i hi => ?_, fun d hd => ?_⟩
    · simp only [hinsert]
    · exact textOperationSchema_insert (hall.valid _ hi) (hlength _ hi) (hafter i ((hinsert i).1 hi))
    · obtain ⟨e, he, hid⟩ := htargets _ ((htarget _).1 ⟨d, (hdelete d).1 hd, rfl⟩)
      refine textOperationSchema_delete (hall.valid _ hd) (hlength _ hd) ?_
      rw [← hid]
      exact hknown e he

/-- **When the server accepts a local edit.**  In a replica of operations that the schema admits,
for a client and a document named as the application names them: every operation that an edit
writes passes the schema and `validateOperation` exactly when every grapheme of the new text has at
most as many code points as the schema allows a value. -/
theorem edit_acceptable_iff {segmentGraphemes : JsString → List JsString} {r : TextReplica}
    (hr : r.Reachable) (hadmitted : ∀ op ∈ r.ops, textOperationSchema op = true)
    {elements : List VisibleElement} (hv : r.getVisibleElements = .ok elements) {db : Database}
    {m : ClientMetaRecord} (hm : db.clientMeta = some m)
    (hclient : isCanonicalUuid m.clientId = true) {documentId : JsString}
    (hdocument : isValidWorkspaceDocumentId documentId = true) {nextText timestamp : JsString}
    {outboxCreatedAt : Int} {operations : List TextOperation}
    (hbuilt : db.Builds segmentGraphemes documentId elements nextText timestamp outboxCreatedAt
      operations) :
    (∀ op ∈ operations, submitOperationMessageSchema ⟨documentId, op⟩ = true ∧
      validateOperation op = .ok ()) ↔
    ∀ g ∈ segmentGraphemes nextText, codePoints g ≤ MAX_OPERATION_VALUE_LENGTH := by
  obtain ⟨hvalid, hcarried, hinsert, hdelete⟩ := hbuilt.written hr hadmitted hv hm hclient
  have hschema : ∀ op, submitOperationMessageSchema ⟨documentId, op⟩ = textOperationSchema op := by
    intro op
    simp only [submitOperationMessageSchema, boundedString_documentId hdocument, Bool.true_and]
  constructor
  · intro haccepted g hg
    rcases mem_segmentGraphemes hg with hg | ⟨e, he, rfl⟩
    · obtain ⟨i, hi, rfl⟩ := (hcarried g).1 hg
      obtain ⟨hadmits, -⟩ := haccepted _ hi
      rw [hschema] at hadmits
      exact (hinsert i hi).1 hadmits
    · -- a grapheme that is kept is the value of an admitted operation
      obtain ⟨op, hop, -, hvalue⟩ := hr.inv.visible_insert hv he
      rw [← hvalue]
      exact codePoints_value_le (hadmitted _ hop)
  · intro hshort op hop
    refine ⟨?_, hvalid op hop⟩
    rw [hschema]
    cases op with
    | insert i =>
      refine (hinsert i hop).2 (hshort _ ?_)
      exact mem_of_mem_insertedGraphemes ((hcarried _).2 ⟨i, hop, rfl⟩)
    | delete d => exact hdelete d hop

/-- A database of the application before the first edit. -/
def firstEditDatabase : Database := { Database.empty with
  clientMeta := some ⟨js "6f1c2a34-9b7d-4e21-8c55-0a1b2c3d4e5f", 1, 0⟩
  documents := Database.empty.documents.put
    ⟨DEFAULT_DOCUMENT_ID, DEFAULT_DOCUMENT_TITLE, js "now", js "now"⟩ }

/-- The insert of the first edit. -/
def firstInsert (value : JsString) : TextOperation :=
  .insert ⟨js "6f1c2a34-9b7d-4e21-8c55-0a1b2c3d4e5f:1", js "6f1c2a34-9b7d-4e21-8c55-0a1b2c3d4e5f",
    1, 1, ROOT_ID, value⟩

/-- The first edit, of a text that is one grapheme. -/
theorem builds_firstInsert {segmentGraphemes : JsString → List JsString} {text : JsString}
    (hsegment : segmentGraphemes text = [text]) (hne : text ≠ []) :
    firstEditDatabase.Builds segmentGraphemes DEFAULT_DOCUMENT_ID [] text (js "now") 0
        [firstInsert text] ∧
      validateOperation (firstInsert text) = .ok () := by
  have hedit : computeLocalTextEdit segmentGraphemes [] text = some ⟨[], ROOT_ID, [text]⟩ := by
    unfold computeLocalTextEdit
    rw [hsegment]
    rfl
  cases text with
  | nil => exact absurd rfl hne
  | cons c text =>
    unfold Database.Builds
    rw [hedit]
    exact ⟨⟨_, rfl⟩, rfl⟩

/-- A letter is typed into an empty document. -/
theorem edit_acceptable_iff_letter :
    submitOperationMessageSchema ⟨DEFAULT_DOCUMENT_ID, firstInsert (js "a")⟩ = true ∧
      validateOperation (firstInsert (js "a")) = .ok () := by
  have hbuilt := (@builds_firstInsert (fun text => text.map ([·])) (js "a") (by decide)
    (by decide)).1
  have hadmitted : ∀ op ∈ TextReplica.empty.ops, textOperationSchema op = true := by
    intro op hop
    rw [TextReplica.ops_empty] at hop
    cases hop
  have haccepted := (edit_acceptable_iff .empty hadmitted (by decide +kernel)
    (rfl : firstEditDatabase.clientMeta = _) (by decide +kernel) (by decide +kernel) hbuilt).2
    (by decide +kernel)
  exact haccepted _ (List.mem_singleton.2 rfl)

theorem combiningSegments_accents (n : Nat) (c : CodeUnit) :
    combiningSegments (c :: List.replicate (n + 1) 769) = [c :: List.replicate (n + 1) 769] := by
  induction n generalizing c with
  | zero =>
    rw [combiningSegments]
    rfl
  | succ n ih =>
    rw [List.replicate_succ, combiningSegments, ih]
    rfl

/-- The first edit, of a text that is one grapheme too long for the schema. -/
theorem refused_firstInsert {segmentGraphemes : JsString → List JsString} {text : JsString}
    (hsegment : segmentGraphemes text = [text])
    (hlong : MAX_OPERATION_VALUE_LENGTH < codePoints text) :
    firstEditDatabase.Builds segmentGraphemes DEFAULT_DOCUMENT_ID [] text (js "now") 0
        [firstInsert text] ∧
      submitOperationMessageSchema ⟨DEFAULT_DOCUMENT_ID, firstInsert text⟩ = false := by
  have hne : text ≠ [] := List.ne_nil_of_length_pos (codePoints_pos.1 (by omega))
  have hvalue : boundedString MAX_OPERATION_VALUE_LENGTH text = false := by
    rw [Bool.eq_false_iff, ne_eq, boundedString_iff]
    omega
  refine ⟨(builds_firstInsert hsegment hne).1, ?_⟩
  simp only [submitOperationMessageSchema, firstInsert, textOperationSchema, hvalue, Bool.and_false]

/-- Letters and accents are code points of their own. -/
theorem codePoints_accents (n : Nat) : codePoints (101 :: List.replicate n 769) = n + 1 := by
  have haccents : codePointsAfter false (List.replicate n 769) = n := by
    induction n with
    | zero => rfl
    | succ n ih =>
      rw [List.replicate_succ, codePointsAfter, show isHighSurrogate 769 = false from rfl, ih]
      exact Nat.add_comm 1 n
  rw [codePoints, codePointsAfter, show isHighSurrogate 101 = false from rfl, haccents]
  exact Nat.add_comm 1 n

/-- A letter with 16384 accents is one grapheme.  The edit that types it is written, and the server
refuses its insert. -/
theorem edit_refused :
    let text : JsString := 101 :: List.replicate (16383 + 1) 769
    Segments combiningSegments ∧
      firstEditDatabase.Builds combiningSegments DEFAULT_DOCUMENT_ID [] text (js "now") 0
        [firstInsert text] ∧
      submitOperationMessageSchema ⟨DEFAULT_DOCUMENT_ID, firstInsert text⟩ = false := by
  refine ⟨segments_combiningSegments, refused_firstInsert (combiningSegments_accents 16383 101) ?_⟩
  rw [codePoints_accents, MAX_OPERATION_VALUE_LENGTH]
  omega

end LocalFirst
