/-
Module: Dotten.Http.HttpHeaders
Layer: Http
Purpose: The header store of a message is an insertion-ordered map whose keys
  are compared without regard to letter case.
Imports: Dotten.Http.TenHttp, Dotten.Library.OrderedMap
Main exports: foldCase, tenCiStrcmp_eq_zero_iff, tenHttpCopy_spec,
  HeaderSetOutcome, tenHttpHeadersSet_spec, tenHttpHeadersGet_eq_lookup
-/
import Dotten.Http.TenHttp
import Dotten.Library.OrderedMap

namespace Dotten

open Dotten.Library

/-- A header name up to letter case. -/
def foldCase (name : CString) : Bytes := name.bytes.map lowerByte

theorem tenCiStrcmpLoop_eq_zero_iff {a b : Bytes} (noNulA : (0 : Byte) ∉ a)
    (noNulB : (0 : Byte) ∉ b) :
    tenCiStrcmpLoop a b = 0 ↔ a.map lowerByte = b.map lowerByte := by
  induction a generalizing b with
  | nil =>
      cases b with
      | nil => simp [tenCiStrcmpLoop]
      | cons head rest =>
          have nonzero : head ≠ 0 := fun zero => noNulB (by simp [zero])
          simpa [tenCiStrcmpLoop, ← UInt8.toNat_inj] using nonzero
  | cons first more inductionHypothesis =>
      cases b with
      | nil =>
          have nonzero : first ≠ 0 := fun zero => noNulA (by simp [zero])
          simpa [tenCiStrcmpLoop, ← UInt8.toNat_inj] using nonzero
      | cons head rest =>
          rw [tenCiStrcmpLoop, List.map_cons, List.map_cons, List.cons.injEq]
          by_cases same : lowerByte first = lowerByte head
          · have restSame := inductionHypothesis
              (fun member => noNulA (List.mem_cons_of_mem first member))
              (fun member => noNulB (List.mem_cons_of_mem head member))
            rw [if_neg (fun differ => differ same), restSame]
            simp [same]
          · have differ : (lowerByte first).toNat ≠ (lowerByte head).toNat :=
              fun toNat => same (UInt8.toNat_inj.mp toNat)
            rw [if_pos same]
            constructor
            · intro difference
              omega
            · rintro ⟨impossible, -⟩
              exact absurd impossible same

/-- `ten__ci_strcmp` answers 0 for names that agree up to letter case. -/
theorem tenCiStrcmp_eq_zero_iff (a b : CString) :
    tenCiStrcmp a b = 0 ↔ foldCase a = foldCase b :=
  tenCiStrcmpLoop_eq_zero_iff a.noNul b.noNul

/-- The pair that the scan of `ten__http_headers_set` stops at is the one that
an insertion changes. -/
theorem insert_eq_of_findIdx? (name value : CString) (pairs : List (CString × CString)) :
    OrderedMap.insert foldCase name value pairs =
      match pairs.findIdx? fun pair => tenCiStrcmp pair.1 name = 0 with
      | some i => pairs.modify i fun pair => (pair.1, value)
      | none => pairs ++ [(name, value)] := by
  induction pairs with
  | nil => rfl
  | cons pair rest inductionHypothesis =>
      rw [OrderedMap.insert, List.findIdx?_cons]
      by_cases here : foldCase pair.1 = foldCase name
      · have matched : tenCiStrcmp pair.1 name = 0 := (tenCiStrcmp_eq_zero_iff _ _).mpr here
        simp [here, matched]
      · have differs : tenCiStrcmp pair.1 name ≠ 0 :=
          fun matched => here ((tenCiStrcmp_eq_zero_iff _ _).mp matched)
        rw [if_neg here, inductionHypothesis]
        simp only [differs, decide_false, Bool.false_eq_true, if_false]
        cases rest.findIdx? fun pair => decide (tenCiStrcmp pair.1 name = 0) with
        | none => rfl
        | some i => rfl

/-- `ten__http_headers_get` reads the map. -/
theorem tenHttpHeadersGet_eq_lookup (headers : TenHttpHeaders) (name : CString) :
    tenHttpHeadersGet headers name = OrderedMap.lookup foldCase name headers.pairs := by
  obtain ⟨pairs, capacity⟩ := headers
  unfold tenHttpHeadersGet
  induction pairs with
  | nil => rfl
  | cons pair rest inductionHypothesis =>
      rw [List.find?_cons, OrderedMap.lookup]
      by_cases here : foldCase pair.1 = foldCase name
      · have matched : tenCiStrcmp pair.1 name = 0 := (tenCiStrcmp_eq_zero_iff _ _).mpr here
        simp [here, matched]
      · have differs : tenCiStrcmp pair.1 name ≠ 0 :=
          fun matched => here ((tenCiStrcmp_eq_zero_iff _ _).mp matched)
        simp only [here, differs, decide_false, if_false]
        exact inductionHypothesis

section Specifications

variable {grants : Schedule} {world : World}

/-- A copied string is the string. -/
theorem tenHttpCopy_spec (text : CString) :
    Returns (tenHttpCopy text) grants world (fun reply _ =>
      (reply = none ∧ ¬ Ample grants) ∨ reply = some text) := by
  have whole : (text.bytes ++ [0]).take (text.length + 1) = text.bytes ++ [0] := by
    apply List.take_of_length_le
    simp [CString.length]
  simp only [tenHttpCopy, tenMemdup, returns_bind, returns_tenMalloc]
  constructor
  · intro granted
    simp only [returns_tenSetError, returns_pure, Option.map_some, whole]
    exact .inr (congrArg some (CString.ofMemory_append_nul text []))
  · intro refused
    simp only [returns_pure, Option.map_none]
    exact .inl ⟨trivial, not_ample_of_refused refused⟩

/-- What `ten__http_headers_set` may do. -/
inductive HeaderSetOutcome (grants : Schedule) (headers : TenHttpHeaders) (name value : CString) :
    TenErrorCode → TenHttpHeaders → Prop where
  | set {after : TenHttpHeaders}
      (pairs : after.pairs = OrderedMap.insert foldCase name value headers.pairs) :
      HeaderSetOutcome grants headers name value .ok after
  | refused {after : TenHttpHeaders} (shortage : ¬ Ample grants)
      (pairs : after.pairs = headers.pairs) :
      HeaderSetOutcome grants headers name value .outOfMemory after

theorem HeaderSetOutcome.of_ample {headers after : TenHttpHeaders} {name value : CString}
    {code : TenErrorCode} (ample : Ample grants)
    (outcome : HeaderSetOutcome grants headers name value code after) :
    code = .ok ∧ after.pairs = OrderedMap.insert foldCase name value headers.pairs := by
  cases outcome with
  | set pairs => exact ⟨rfl, pairs⟩
  | refused shortage => exact absurd ample shortage

theorem tenHttpHeadersPush_spec (headers : TenHttpHeaders) (name value : CString) :
    Returns (tenHttpHeadersPush headers name value) grants world (fun reply _ =>
      (reply.1 = .ok ∧ reply.2.pairs = headers.pairs ++ [(name, value)]) ∨
        (reply = (.outOfMemory, headers) ∧ ¬ Ample grants)) := by
  simp only [tenHttpHeadersPush, returns_bind]
  apply (tenHttpCopy_spec name).mono
  rintro nameCopy _ (⟨rfl, shortage⟩ | rfl)
  · rw [returns_pure]
    exact .inr ⟨rfl, shortage⟩
  · rw [returns_bind]
    apply (tenHttpCopy_spec value).mono
    rintro valueCopy _ (⟨rfl, shortage⟩ | rfl)
    · rw [returns_pure]
      exact .inr ⟨rfl, shortage⟩
    · rw [returns_pure]
      exact .inl ⟨rfl, rfl⟩

/-- `ten__http_headers_set` is the insertion, or leaves the pairs as they
are. -/
theorem tenHttpHeadersSet_spec (headers : TenHttpHeaders) (name value : CString) :
    Returns (tenHttpHeadersSet headers name value) grants world (fun reply _ =>
      HeaderSetOutcome grants headers name value reply.1 reply.2) := by
  have inserted := insert_eq_of_findIdx? name value headers.pairs
  unfold tenHttpHeadersSet
  cases search : headers.pairs.findIdx? fun pair => decide (tenCiStrcmp pair.1 name = 0) with
  | some i =>
      rw [search] at inserted
      rw [returns_bind]
      apply (tenHttpCopy_spec value).mono
      rintro valueCopy _ (⟨rfl, shortage⟩ | rfl)
      · rw [returns_pure]
        exact .refused shortage rfl
      · rw [returns_pure]
        exact .set inserted.symm
  | none =>
      rw [search] at inserted
      -- Whether the block has been enlarged or not, a pair is appended to it.
      have pushed : ∀ {grown : TenHttpHeaders} {now : World}, grown.pairs = headers.pairs →
          Returns (tenHttpHeadersPush grown name value) grants now (fun reply _ =>
            HeaderSetOutcome grants headers name value reply.1 reply.2) := by
        intro grown now same
        apply (tenHttpHeadersPush_spec grown name value).mono
        rintro ⟨code, after⟩ _ (⟨rfl, pairs⟩ | ⟨refused, shortage⟩)
        · rw [same] at pairs
          exact .set (pairs.trans inserted.symm)
        · cases refused
          exact .refused shortage same
      apply returns_ite
      · intro full
        simp only [returns_bind, returns_tenRealloc, returns_tenMalloc]
        constructor
        · intro granted
          exact pushed rfl
        · intro refused
          rw [returns_pure]
          exact .refused (not_ample_of_refused refused) rfl
      · intro roomy
        exact pushed rfl

end Specifications

end Dotten
