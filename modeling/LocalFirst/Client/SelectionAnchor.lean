import LocalFirst.Crdt.Order
import LocalFirst.Lib.Boundaries
import LocalFirst.Lib.Survivors
import Mathlib.Algebra.Order.Ring.Int
import Mathlib.Order.Bounds.Defs
import Mathlib.Data.Int.ConditionallyCompleteOrder
import Mathlib.Order.Lattice.Nat

/-!
# The caret across a remote change

* `offsetToElementIndex`, `elementIndexToOffset` — UTF-16 offsets against positions in the list
  of visible elements; `offset_index_adjunction`.
* `captureSelectionAnchor` — the selection as the identities before each of its ends.
* `resolveSelectionAnchor` — the offsets of those identities in a later list.
* `selection_follows_iff` — when both ends follow their closest surviving predecessors.
-/

set_option autoImplicit false

namespace LocalFirst

/-! ## Offsets and element indices -/

/-- The loop of `offsetToElementIndex`, with what was consumed before `index`. -/
def consumeElements (offset : ℤ) : List VisibleElement → ℤ → ℕ → ℕ
  | [], _, index => index
  | element :: rest, consumed, index =>
    if consumed + element.value.length ≥ offset then index + 1
    else consumeElements offset rest (consumed + element.value.length) (index + 1)

def offsetToElementIndex (elements : List VisibleElement) (offset : ℤ) : ℕ :=
  if offset ≤ 0 then 0 else consumeElements offset elements 0 0

def elementIndexToOffset (elements : List VisibleElement) (elementIndex : ℤ) : ℤ :=
  let bounded := max 0 (min elementIndex elements.length)
  (elements.take bounded.toNat).foldl (fun offset element => offset + element.value.length) 0

/-- What an element adds to the text. -/
def elementWidth (element : VisibleElement) : ℕ := element.value.length

theorem consumeElements_eq {offset : ℤ} : ∀ (elements : List VisibleElement) (consumed : ℤ)
    (index : ℕ), consumed < offset → consumeElements offset elements consumed index =
      index + ceilIndex elementWidth elements (offset - consumed).toNat
  | [], _, _, _ => by simp [consumeElements]
  | element :: rest, consumed, index, h => by
    have hpos : 0 < (offset - consumed).toNat := by omega
    have hrest : (offset - consumed).toNat - elementWidth element =
        (offset - (consumed + element.value.length)).toNat := by
      unfold elementWidth
      omega
    rw [consumeElements, ceilIndex_cons_of_pos elementWidth hpos, hrest]
    split
    · rename_i hreached
      rw [Int.toNat_of_nonpos (by omega), ceilIndex_zero]
    · rename_i hshort
      rw [consumeElements_eq rest _ _ (by omega)]
      omega

theorem offsetToElementIndex_eq (elements : List VisibleElement) (offset : ℤ) :
    offsetToElementIndex elements offset = ceilIndex elementWidth elements offset.toNat := by
  unfold offsetToElementIndex
  split
  · rename_i h
    rw [Int.toNat_of_nonpos h, ceilIndex_zero]
  · rename_i h
    rw [consumeElements_eq elements 0 0 (by omega)]
    simp

theorem foldl_elementWidth : ∀ (l : List VisibleElement) (offset : ℤ),
    l.foldl (fun (offset : ℤ) element => offset + element.value.length) offset =
      offset + ((l.map elementWidth).sum : ℕ)
  | [], _ => by simp
  | e :: l, offset => by
    rw [List.foldl_cons, foldl_elementWidth l, List.map_cons, List.sum_cons]
    unfold elementWidth
    omega

theorem elementIndexToOffset_eq (elements : List VisibleElement) (elementIndex : ℤ) :
    elementIndexToOffset elements elementIndex =
      boundary elementWidth elements elementIndex.toNat := by
  have hbounded : (max 0 (min elementIndex elements.length)).toNat =
      min elementIndex.toNat elements.length := by omega
  unfold elementIndexToOffset boundary
  simp only [foldl_elementWidth, hbounded, zero_add]
  rw [← List.take_eq_take_min]

theorem elementIndexToOffset_mono (elements : List VisibleElement) :
    Monotone (elementIndexToOffset elements) := by
  intro i j hij
  rw [elementIndexToOffset_eq, elementIndexToOffset_eq]
  exact_mod_cast boundary_mono elementWidth elements (show i.toNat ≤ j.toNat by omega)

theorem elementWidth_pos {elements : List VisibleElement} (h : ∀ e ∈ elements, e.value ≠ []) :
    ∀ e ∈ elements, 0 < elementWidth e :=
  fun e he => List.length_pos_iff.2 (h e he)

/-- **Offsets and element indices are adjoint.**  When no element is empty, an index comes back
from its boundary; an offset goes to the least index whose boundary is not before it, or to the
end when it lies past the text; and both maps are monotone. -/
theorem offset_index_adjunction {elements : List VisibleElement}
    (h : ∀ e ∈ elements, e.value ≠ []) :
    (∀ i : ℕ, i ≤ elements.length →
      offsetToElementIndex elements (elementIndexToOffset elements i) = i) ∧
    (∀ o : ℤ, o ≤ elementIndexToOffset elements elements.length →
      IsLeast {i : ℕ | o ≤ elementIndexToOffset elements i} (offsetToElementIndex elements o)) ∧
    (∀ o : ℤ, elementIndexToOffset elements elements.length < o →
      offsetToElementIndex elements o = elements.length) ∧
    Monotone (offsetToElementIndex elements) ∧ Monotone (elementIndexToOffset elements) := by
  have hadjoint : ∀ (o : ℤ) (i : ℕ), o ≤ elementIndexToOffset elements elements.length →
      (offsetToElementIndex elements o ≤ i ↔ o ≤ elementIndexToOffset elements i) := by
    intro o i ho
    rw [elementIndexToOffset_eq, Int.toNat_natCast] at ho ⊢
    rw [offsetToElementIndex_eq, ceilIndex_le_iff elementWidth (by omega)]
    omega
  refine ⟨fun i hi => ?_, fun o ho => ?_, fun o ho => ?_, fun o o' ho => ?_,
    elementIndexToOffset_mono elements⟩
  · rw [elementIndexToOffset_eq, offsetToElementIndex_eq, Int.toNat_natCast, Int.toNat_natCast]
    exact ceilIndex_boundary (elementWidth_pos h) hi
  · exact ⟨(hadjoint o _ ho).1 le_rfl, fun i hi => (hadjoint o i ho).2 hi⟩
  · rw [elementIndexToOffset_eq, Int.toNat_natCast] at ho
    rw [offsetToElementIndex_eq]
    exact ceilIndex_of_total_lt elementWidth (by omega)
  · rw [offsetToElementIndex_eq, offsetToElementIndex_eq]
    exact ceilIndex_mono elementWidth elements (by omega)

/-- An element of two code units between two of one: the offset inside it goes to its end. -/
theorem offset_index_adjunction_emoji :
    let elements : List VisibleElement :=
      [⟨js "client-a:1", js "a"⟩, ⟨js "client-a:2", js "👋"⟩, ⟨js "client-a:3", js "b"⟩]
    (offsetToElementIndex elements 2 = 2 ∧ offsetToElementIndex elements 99 = 3) ∧
    (∀ i : ℕ, i ≤ elements.length →
      offsetToElementIndex elements (elementIndexToOffset elements i) = i) ∧
    Monotone (offsetToElementIndex elements) := by
  intro elements
  obtain ⟨hback, -, -, hmono, -⟩ := @offset_index_adjunction elements (by decide)
  exact ⟨by decide, hback, hmono⟩

/-! ## Capture and resolution -/

def MAX_FALLBACK_TRAIL : ℕ := 32

inductive SelectionDirection where
  | forward
  | backward
  | none
  deriving DecidableEq

structure SelectionAnchor where
  startAfterId : JsString
  endAfterId : JsString
  startFallbackTrail : List JsString
  endFallbackTrail : List JsString
  direction : SelectionDirection
  deriving DecidableEq

structure SelectionOffsets where
  start : ℤ
  end_ : ℤ
  deriving DecidableEq

/-- The loop of `trailFrom`, from the element before `index` down. -/
def trailBefore (elements : List VisibleElement) : ℕ → List JsString → List JsString
  | 0, trail => trail
  | index + 1, trail =>
    if trail.length < MAX_FALLBACK_TRAIL then
      match elements[index]? with
      | some element =>
        trailBefore elements index (if element.id = [] then trail else trail ++ [element.id])
      | none => trailBefore elements index trail
    else trail

def trailFrom (elements : List VisibleElement) (elementIndex : ℕ) : List JsString :=
  trailBefore elements elementIndex [] ++ [ROOT_ID]

def captureSelectionAnchor (elements : List VisibleElement) (selectionStart selectionEnd : ℤ)
    (direction : SelectionDirection) : SelectionAnchor :=
  let startIndex := offsetToElementIndex elements selectionStart
  let endIndex := offsetToElementIndex elements selectionEnd
  let startTrail := trailFrom elements startIndex
  let endTrail := trailFrom elements endIndex
  { startAfterId := startTrail.headD ROOT_ID
    endAfterId := endTrail.headD ROOT_ID
    startFallbackTrail := startTrail
    endFallbackTrail := endTrail
    direction := direction }

/-- The loop of `resolveTrailOffset` that fills its map. -/
def indexById : List VisibleElement → ℕ → InsMap JsString ℕ → InsMap JsString ℕ
  | [], _, known => known
  | element :: rest, index, known => indexById rest (index + 1) (known.set element.id index)

/-- The loop of `resolveTrailOffset` over the trail. -/
def resolveCandidates (elements : List VisibleElement) (known : InsMap JsString ℕ) :
    List JsString → Option ℤ
  | [] => none
  | candidate :: trail =>
    if candidate = ROOT_ID then some 0
    else
      match known.get? candidate with
      | some index => some (elementIndexToOffset elements (index + 1))
      | none => resolveCandidates elements known trail

def resolveTrailOffset (elements : List VisibleElement) (trail : List JsString) : Option ℤ :=
  resolveCandidates elements (indexById elements 0 .empty) trail

def resolveSelectionAnchor (elements : List VisibleElement) (anchor : SelectionAnchor) :
    Option SelectionOffsets :=
  match resolveTrailOffset elements anchor.startFallbackTrail,
    resolveTrailOffset elements anchor.endFallbackTrail with
  | some start, some end_ => some ⟨min start end_, max start end_⟩
  | _, _ => none

/-! ## What a caret follows -/

/-- The identities of a list of elements. -/
def elementIds (elements : List VisibleElement) : List JsString := elements.map (·.id)

/-- A list of elements that a replica can show: distinct operation identities, nothing empty. -/
structure Elements (elements : List VisibleElement) : Prop where
  distinct : (elementIds elements).Nodup
  named : ∀ e ∈ elements, e.id ≠ [] ∧ e.id ≠ ROOT_ID
  filled : ∀ e ∈ elements, e.value ≠ []

/-- The last of the `k` elements before index `i` that `later` still has. -/
def closestSurvivor (k : ℕ) (elements later : List VisibleElement) (i : ℕ) : Option JsString :=
  nearestBefore k (· ∈ elementIds later) (elementIds elements) i

/-- The offset just after an element, or the start when there is none. -/
def offsetAfter (later : List VisibleElement) : Option JsString → ℤ
  | none => 0
  | some id => elementIndexToOffset later ((elementIds later).idxOf id + 1)

/-- The elements of `elements` that `later` still has stand in the same order there. -/
def KeepsOrder (elements later : List VisibleElement) : Prop :=
  (elementIds elements).filter (· ∈ elementIds later) =
    (elementIds later).filter (· ∈ elementIds elements)

instance (elements later : List VisibleElement) : Decidable (KeepsOrder elements later) :=
  inferInstanceAs (Decidable (_ = _))

section

variable {elements later : List VisibleElement}

theorem trailBefore_eq (hnamed : ∀ e ∈ elements, e.id ≠ []) : ∀ (index : ℕ) (trail : List JsString),
    index ≤ elements.length → trailBefore elements index trail = trail ++
      ((elementIds elements).take index).reverse.take (MAX_FALLBACK_TRAIL - trail.length)
  | 0, trail, _ => by simp [trailBefore]
  | index + 1, trail, h => by
    have hindex : index < elements.length := by omega
    have hget : elements[index]? = some elements[index] := List.getElem?_eq_getElem hindex
    have hid : elements[index].id ≠ [] := hnamed _ (List.getElem_mem _)
    have hsplit : ((elementIds elements).take (index + 1)).reverse =
        elements[index].id :: ((elementIds elements).take index).reverse := by
      rw [List.take_add_one, List.reverse_append]
      simp [elementIds, hget]
    rw [trailBefore, hsplit]
    split
    · rename_i hroom
      have hrest : MAX_FALLBACK_TRAIL - trail.length =
          MAX_FALLBACK_TRAIL - (trail ++ [elements[index].id]).length + 1 := by
        rw [List.length_append, List.length_singleton]
        omega
      rw [hget]
      simp only [if_neg hid]
      rw [trailBefore_eq hnamed index _ (by omega), hrest, List.take_succ_cons, List.append_assoc]
      rfl
    · rename_i hfull
      rw [Nat.sub_eq_zero_of_le (by omega), List.take_zero, List.append_nil]

theorem get?_indexById : ∀ (l : List VisibleElement) (index : ℕ) (known : InsMap JsString ℕ),
    (elementIds l).Nodup → ∀ id, (indexById l index known).get? id =
      if id ∈ elementIds l then some (index + (elementIds l).idxOf id) else known.get? id
  | [], _, _, _, _ => by simp [indexById, elementIds]
  | e :: l, index, known, hnd, id => by
    have hfresh : e.id ∉ elementIds l := (List.nodup_cons.1 hnd).1
    have hrest : (elementIds l).Nodup := (List.nodup_cons.1 hnd).2
    rw [indexById, get?_indexById l _ _ hrest id, InsMap.get?_set]
    by_cases hid : id = e.id
    · subst hid
      have hin : e.id ∈ elementIds (e :: l) := List.mem_cons_self
      have hhead : (elementIds (e :: l)).idxOf e.id = 0 := List.idxOf_cons_self
      rw [if_neg hfresh, if_pos rfl, if_pos hin, hhead, Nat.add_zero]
    · have hne : ¬ e.id = id := fun h => hid h.symm
      have hmem : id ∈ elementIds (e :: l) ↔ id ∈ elementIds l := by
        simp [elementIds, hid]
      simp only [hmem, if_neg hne]
      split
      · rename_i hin
        simp only [elementIds, List.map_cons, List.idxOf_cons_ne _ hne]
        congr 1
        omega
      · rfl

theorem resolveCandidates_eq (hlater : (elementIds later).Nodup) : ∀ trail : List JsString,
    (∀ id ∈ trail, id ≠ ROOT_ID) →
      resolveCandidates later (indexById later 0 .empty) (trail ++ [ROOT_ID]) =
        some (offsetAfter later (trail.find? (· ∈ elementIds later)))
  | [], _ => by simp [resolveCandidates, offsetAfter]
  | candidate :: trail, hroot => by
    have hrest := resolveCandidates_eq hlater trail fun id hid => hroot id (List.mem_cons_of_mem _ hid)
    rw [List.cons_append, resolveCandidates, if_neg (hroot candidate List.mem_cons_self),
      get?_indexById later 0 .empty hlater]
    by_cases hin : candidate ∈ elementIds later
    · simp [hin, offsetAfter]
    · simp [hin, hrest]

/-- What a trail resolves to. -/
theorem resolveTrailOffset_trailFrom (h : Elements elements) (hlater : (elementIds later).Nodup)
    {i : ℕ} (hi : i ≤ elements.length) : resolveTrailOffset later (trailFrom elements i) =
      some (offsetAfter later (closestSurvivor MAX_FALLBACK_TRAIL elements later i)) := by
  unfold resolveTrailOffset trailFrom closestSurvivor nearestBefore
  rw [trailBefore_eq (fun e he => (h.named e he).1) i [] hi, List.nil_append, List.length_nil,
    Nat.sub_zero]
  apply resolveCandidates_eq hlater
  intro id hid
  have hmem := List.mem_of_mem_take (List.mem_reverse.1 (List.mem_of_mem_take hid))
  obtain ⟨e, he, rfl⟩ := List.mem_map.1 hmem
  exact (h.named e he).2

theorem captureSelectionAnchor_boundary (h : Elements elements) {i j : ℕ}
    (hi : i ≤ elements.length) (hj : j ≤ elements.length) (direction : SelectionDirection) :
    (captureSelectionAnchor elements (elementIndexToOffset elements i)
      (elementIndexToOffset elements j) direction).startFallbackTrail = trailFrom elements i ∧
    (captureSelectionAnchor elements (elementIndexToOffset elements i)
      (elementIndexToOffset elements j) direction).endFallbackTrail = trailFrom elements j := by
  have hback := (offset_index_adjunction h.filled).1
  constructor
  · simp only [captureSelectionAnchor, hback i hi]
  · simp only [captureSelectionAnchor, hback j hj]

/-- Where one end of the selection resolves to: after the closest survivor of its trail. -/
def caretOffset (elements later : List VisibleElement) (i : ℕ) : ℤ :=
  offsetAfter later (closestSurvivor MAX_FALLBACK_TRAIL elements later i)

theorem resolveSelectionAnchor_eq (h : Elements elements) (hlater : (elementIds later).Nodup)
    {i j : ℕ} (hi : i ≤ elements.length) (hj : j ≤ elements.length)
    (direction : SelectionDirection) :
    resolveSelectionAnchor later (captureSelectionAnchor elements (elementIndexToOffset elements i)
      (elementIndexToOffset elements j) direction) =
        some ⟨min (caretOffset elements later i) (caretOffset elements later j),
          max (caretOffset elements later i) (caretOffset elements later j)⟩ := by
  obtain ⟨hstart, hend⟩ := captureSelectionAnchor_boundary h hi hj direction
  unfold resolveSelectionAnchor caretOffset
  rw [hstart, hend, resolveTrailOffset_trailFrom h hlater hi, resolveTrailOffset_trailFrom h hlater hj]

theorem elementIndexToOffset_nonneg (i : ℤ) : 0 ≤ elementIndexToOffset elements i := by
  rw [elementIndexToOffset_eq]
  omega

/-- In a list that keeps the order, the offset after the closest survivor of a later end is not
earlier, unless only the earlier end has one among the nearest `k`. -/
theorem offsetAfter_le (h : Elements elements) (hlater : (elementIds later).Nodup)
    (horder : KeepsOrder elements later) {k i j : ℕ} (hij : i ≤ j) (hj : j ≤ elements.length)
    (hfound : (closestSurvivor k elements later i).isSome →
      (closestSurvivor k elements later j).isSome) :
    offsetAfter later (closestSurvivor k elements later i) ≤
      offsetAfter later (closestSurvivor k elements later j) := by
  have hlen : (elementIds elements).length = elements.length := List.length_map _
  cases ha : closestSurvivor k elements later i with
  | none =>
    cases closestSurvivor k elements later j with
    | none => exact le_rfl
    | some b => exact elementIndexToOffset_nonneg _
  | some a =>
    obtain ⟨b, hb⟩ := Option.isSome_iff_exists.1 (hfound (by rw [ha]; rfl))
    obtain ⟨hal, hap, -⟩ := nearestBefore_spec h.distinct (by omega) ha
    obtain ⟨hbl, hbp, -⟩ := nearestBefore_spec h.distinct (by omega) hb
    have hle := nearestBefore_idxOf_le h.distinct hij (by omega) ha hb
    rw [hb]
    apply elementIndexToOffset_mono later
    rcases hle.eq_or_lt with heq | hlt
    · obtain rfl := (List.idxOf_inj hal).1 heq
      exact le_rfl
    · have := idxOf_lt_of_filter_eq h.distinct hlater horder hal (by simpa using hap) hbl
        (by simpa using hbp) hlt
      omega

/-- In the same list both ends are where they were. -/
theorem caretOffset_self (h : Elements elements) {i : ℕ} (hi : i ≤ elements.length) :
    caretOffset elements elements i = elementIndexToOffset elements i := by
  unfold caretOffset closestSurvivor nearestBefore
  cases i with
  | zero => simp [offsetAfter, elementIndexToOffset]
  | succ i =>
    have hlt : i < (elementIds elements).length := by
      rw [elementIds, List.length_map]
      omega
    have htrail : ((elementIds elements).take (i + 1)).reverse.take MAX_FALLBACK_TRAIL =
        (elementIds elements)[i] :: ((elementIds elements).take i).reverse.take 31 := by
      rw [List.take_succ_eq_append_getElem hlt, List.reverse_append]
      rfl
    rw [htrail, List.find?_cons_of_pos (by simp)]
    simp only [offsetAfter, h.distinct.idxOf_getElem]
    norm_cast

end

/-! ## The closest surviving predecessor -/

/-- The offset just after the last of all elements before index `i` that `later` still has. -/
def survivorOffset (elements later : List VisibleElement) (i : ℕ) : ℤ :=
  offsetAfter later (closestSurvivor elements.length elements later i)

/-- What a selection from boundary `i` to boundary `j` is to do: each end follows its closest
surviving predecessor, the ends are not swapped where the survivors keep their order, and in the
same list nothing moves. -/
structure FollowsSurvivors (elements later : List VisibleElement) (i j : ℕ)
    (direction : SelectionDirection) : Prop where
  ends : resolveSelectionAnchor later (captureSelectionAnchor elements
    (elementIndexToOffset elements i) (elementIndexToOffset elements j) direction) =
      some ⟨min (survivorOffset elements later i) (survivorOffset elements later j),
        max (survivorOffset elements later i) (survivorOffset elements later j)⟩
  ordered : KeepsOrder elements later →
    survivorOffset elements later i ≤ survivorOffset elements later j ∧
      resolveSelectionAnchor later (captureSelectionAnchor elements
        (elementIndexToOffset elements i) (elementIndexToOffset elements j) direction) =
          some ⟨survivorOffset elements later i, survivorOffset elements later j⟩
  unchanged : later = elements → resolveSelectionAnchor later (captureSelectionAnchor elements
    (elementIndexToOffset elements i) (elementIndexToOffset elements j) direction) =
      some ⟨elementIndexToOffset elements i, elementIndexToOffset elements j⟩

/-- The bounded trail of an end reaches its closest survivor, or that survivor adds nothing: then
the end belongs at the start. -/
def TrailReaches (elements later : List VisibleElement) (i : ℕ) : Prop :=
  (closestSurvivor MAX_FALLBACK_TRAIL elements later i).isSome ∨ survivorOffset elements later i = 0

section

variable {elements later : List VisibleElement} {i j : ℕ}

/-- Where the bounded trail has a survivor, it is the closest one. -/
theorem caretOffset_cases : caretOffset elements later i = survivorOffset elements later i ∨
    closestSurvivor MAX_FALLBACK_TRAIL elements later i = none ∧
      caretOffset elements later i = 0 := by
  unfold caretOffset survivorOffset
  cases hfound : closestSurvivor MAX_FALLBACK_TRAIL elements later i with
  | none => exact Or.inr ⟨rfl, rfl⟩
  | some a =>
    have hlast := nearestBefore_length_of_some hfound
    rw [elementIds, List.length_map] at hlast
    left
    rw [show closestSurvivor elements.length elements later i = some a from hlast]

theorem trailReaches_iff : TrailReaches elements later i ↔
    caretOffset elements later i = survivorOffset elements later i := by
  constructor
  · rintro (hfound | hzero)
    · refine caretOffset_cases.resolve_right fun hnone => ?_
      rw [hnone.1] at hfound
      cases hfound
    · rcases caretOffset_cases with heq | ⟨-, hcaret⟩
      · exact heq
      · rw [hcaret, hzero]
  · intro heq
    unfold TrailReaches
    cases hfound : closestSurvivor MAX_FALLBACK_TRAIL elements later i with
    | some a => exact Or.inl rfl
    | none =>
      right
      rw [← heq, caretOffset, hfound]
      rfl

theorem survivorOffset_le (h : Elements elements) (hlater : (elementIds later).Nodup)
    (horder : KeepsOrder elements later) (hij : i ≤ j) (hj : j ≤ elements.length) :
    survivorOffset elements later i ≤ survivorOffset elements later j := by
  refine offsetAfter_le h hlater horder hij hj fun hfound => ?_
  have hlength : (elementIds elements).length = elements.length := List.length_map _
  unfold closestSurvivor at *
  rw [← hlength] at hfound ⊢
  exact nearestBefore_length_isSome hij hfound

end

/-- **When the caret follows its closest surviving predecessor**: exactly when the bounded trails of
both ends reach it. -/
theorem selection_follows_iff {elements later : List VisibleElement} (h : Elements elements)
    (hlater : (elementIds later).Nodup) {i j : ℕ} (hi : i ≤ elements.length)
    (hj : j ≤ elements.length)
    (hij : elementIndexToOffset elements i ≤ elementIndexToOffset elements j)
    (direction : SelectionDirection) :
    FollowsSurvivors elements later i j direction ↔
      TrailReaches elements later i ∧ TrailReaches elements later j := by
  have hresolved := resolveSelectionAnchor_eq h hlater hi hj direction
  rw [trailReaches_iff, trailReaches_iff]
  constructor
  · intro hfollows
    have hends := hresolved.symm.trans hfollows.ends
    rw [Option.some.injEq, SelectionOffsets.mk.injEq] at hends
    -- an end whose trail is exhausted is at 0, before both survivors
    have hnonneg : ∀ k, 0 ≤ survivorOffset elements later k := by
      intro k
      unfold survivorOffset offsetAfter
      split
      · exact le_rfl
      · exact elementIndexToOffset_nonneg _
    have := hnonneg i
    have := hnonneg j
    rcases @caretOffset_cases elements later i with hsame | ⟨-, hzero⟩ <;>
      rcases @caretOffset_cases elements later j with hsame' | ⟨-, hzero'⟩ <;> omega
  · rintro ⟨hstart, hend⟩
    rw [hstart, hend] at hresolved
    refine ⟨hresolved, fun horder => ?_, fun hsame => ?_⟩
    · have hle : i ≤ j := by
        rw [elementIndexToOffset_eq, elementIndexToOffset_eq] at hij
        exact (boundary_le_iff (elementWidth_pos h.filled) hi).1 (by exact_mod_cast hij)
      have hcaret := survivorOffset_le h hlater horder hle hj
      refine ⟨hcaret, ?_⟩
      rw [hresolved, min_eq_left hcaret, max_eq_right hcaret]
    · subst hsame
      rw [hresolved, ← hstart, ← hend, caretOffset_self h hi, caretOffset_self h hj,
        min_eq_left hij, max_eq_right hij]

/-- One element came in before the selection and its last element was deleted. -/
theorem selection_follows_deleted :
    let elements : List VisibleElement :=
      [⟨js "a:1", js "h"⟩, ⟨js "a:2", js "👋"⟩, ⟨js "a:3", js "o"⟩]
    let later : List VisibleElement := [⟨js "b:1", js "Z"⟩, ⟨js "a:1", js "h"⟩, ⟨js "a:2", js "👋"⟩]
    resolveSelectionAnchor later (captureSelectionAnchor elements (elementIndexToOffset elements 1)
      (elementIndexToOffset elements 3) .forward) = some ⟨2, 4⟩ := by
  intro elements later
  have helements : Elements elements := ⟨by decide, by decide, by decide⟩
  have h := (@selection_follows_iff elements later helements (by decide) 1 3 (by decide) (by decide)
    (by decide) .forward).2 ⟨Or.inl (by decide), Or.inl (by decide)⟩
  exact (h.ordered (by decide)).2

/-- Forty elements are selected from the seventh on, and the later list has the first seven.  The
order is kept and both ends have survivors before them, after which the offset is 7, but the end
goes to the start of the text and becomes the start. -/
theorem selection_follows_beyond_trail :
    let elements : List VisibleElement :=
      (List.range 40).map fun n => ⟨makeOperationId (js "client-a") (n + 1), js "x"⟩
    let later := elements.take 7
    Elements elements ∧ (elementIds later).Nodup ∧ KeepsOrder elements later ∧
      elementIndexToOffset elements 7 ≤ elementIndexToOffset elements 40 ∧
      survivorOffset elements later 7 = 7 ∧ survivorOffset elements later 40 = 7 ∧
      resolveSelectionAnchor later (captureSelectionAnchor elements (elementIndexToOffset elements 7)
        (elementIndexToOffset elements 40) .forward) = some ⟨0, 7⟩ ∧
      ¬ FollowsSurvivors elements later 7 40 .forward := by
  intro elements later
  refine ⟨⟨?_, ?_, ?_⟩, ?_, ?_, ?_, ?_, ?_, ?_, fun hfollows => absurd hfollows.ends ?_⟩
  all_goals decide +kernel

/-! ## The lists a replica shows -/

namespace TextReplica

section

variable {r r' : TextReplica} {v v' : List VisibleElement} (h : Inv r)
  (hv : r.getVisibleElements = .ok v)
include h hv

theorem Inv.elements : Elements v where
  distinct := h.visible_nodup hv
  named e he := by
    obtain ⟨op, hop, hid, -⟩ := h.visible_insert hv he
    have hvalid := h.coherent.valid _ hop
    rw [← hid]
    exact ⟨hvalid.opId_ne_nil, hvalid.opId_ne_root⟩
  filled e he := by
    obtain ⟨n, hn, -, hvalue⟩ := (h.visible_iff hv).1 he
    rw [← hvalue]
    exact ValidOperation.value_ne_nil (h.coherent.valid _ (h.node_insert e.id n hn).2)

/-- Two visible elements of one identity are the same element. -/
theorem Inv.visible_eq (h' : Inv r') (hsub : r.ops ⊆ r'.ops)
    (hv' : r'.getVisibleElements = .ok v') {e e' : VisibleElement} (he : e ∈ v) (he' : e' ∈ v')
    (hid : e.id = e'.id) : e = e' := by
  obtain ⟨n, hn, -, hvalue⟩ := (h.visible_iff hv).1 he
  obtain ⟨n', hn', -, hvalue'⟩ := (h'.visible_iff hv').1 he'
  have hop := h.node_insert e.id n hn
  have hop' := h'.node_insert e'.id n' hn'
  have heq : insertOf n = insertOf n' :=
    h'.insert_eq (hsub hop.2) hop'.2 (hop.1.trans (hid.trans hop'.1.symm))
  obtain ⟨id, value⟩ := e
  obtain ⟨id', value'⟩ := e'
  simp only [VisibleElement.mk.injEq]
  exact ⟨hid, hvalue.symm.trans ((congrArg InsertOperation.value heq).trans hvalue')⟩

/-- A replica that knows more keeps the order of the elements that are still visible. -/
theorem Inv.keepsOrder (h' : Inv r') (hsub : r.ops ⊆ r'.ops)
    (hv' : r'.getVisibleElements = .ok v') : KeepsOrder v v' := by
  have hstable := congrArg elementIds (h.visible_stable h' hsub hv hv')
  have hleft : ∀ e ∈ v, (e ∈ v' ↔ e.id ∈ elementIds v') := by
    intro e he
    constructor
    · exact fun he' => List.mem_map_of_mem he'
    · intro hid
      obtain ⟨e', he', hid'⟩ := List.mem_map.1 hid
      rwa [h.visible_eq hv h' hsub hv' he he' hid'.symm]
  have hright : ∀ e' ∈ v', (e' ∈ v ↔ e'.id ∈ elementIds v) := by
    intro e' he'
    constructor
    · exact fun he => List.mem_map_of_mem he
    · intro hid
      obtain ⟨e, he, hid'⟩ := List.mem_map.1 hid
      rwa [← h.visible_eq hv h' hsub hv' he he' hid']
  unfold KeepsOrder elementIds at *
  rw [List.filter_map, List.filter_map]
  rw [List.filter_congr fun e he => decide_eq_decide.2 (hleft e he),
    List.filter_congr fun e he => decide_eq_decide.2 (hright e he)] at hstable
  exact hstable

end

/-- A selection survives the operations that a replica applies: it is never reversed, and an end
moves only with the text before it. -/
theorem selection_stable {r : TextReplica} (hr : Reachable r) {l : List TextOperation}
    (hok : (r.applyAll l).2 = .ok ()) : ∃ v v', r.getVisibleElements = .ok v ∧
      (r.applyAll l).1.getVisibleElements = .ok v' ∧ ∀ (i j : ℕ) (direction : SelectionDirection),
        i ≤ j → j ≤ v.length →
        ((closestSurvivor MAX_FALLBACK_TRAIL v v' i).isSome →
          (closestSurvivor MAX_FALLBACK_TRAIL v v' j).isSome) →
        resolveSelectionAnchor v' (captureSelectionAnchor v (elementIndexToOffset v i)
          (elementIndexToOffset v j) direction) = some ⟨caretOffset v v' i, caretOffset v v' j⟩ ∧
        caretOffset v v' i ≤ caretOffset v v' j := by
  have h := hr.inv
  obtain ⟨h', -, hops⟩ := applyAll_spec l h
  have hsub : r.ops ⊆ (r.applyAll l).1.ops := by
    rw [hops hok]
    exact Set.subset_union_left
  obtain ⟨v, hv⟩ := h.visible_ok
  obtain ⟨v', hv'⟩ := h'.visible_ok
  refine ⟨v, v', hv, hv', fun i j direction hij hj hfound => ?_⟩
  have helements := h.elements hv
  have hdistinct := (h'.elements hv').distinct
  have hcaret : caretOffset v v' i ≤ caretOffset v v' j :=
    offsetAfter_le helements hdistinct (h.keepsOrder hv h' hsub hv') hij hj hfound
  refine ⟨?_, hcaret⟩
  rw [resolveSelectionAnchor_eq helements hdistinct (by omega) hj direction, min_eq_left hcaret,
    max_eq_right hcaret]

end TextReplica

end LocalFirst
