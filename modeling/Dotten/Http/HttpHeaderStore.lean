/-
Module: Dotten.Http.HttpHeaderStore
Layer: Http
Purpose: The headers of a request after any calls that set them, or after any
  lines that were parsed, whichever allocations are refused: a map of the names
  up to letter case.
Imports: Dotten.Http.HttpParsing
Main exports: HeaderCall, setRequestHeaders, successful, HeaderStore,
  setRequestHeaders_spec, setRequestHeaders_sets, lineHeader, blockLines, lineCalls,
  tenHttpParseHeadersText_sets, tenHttpHeaders_store
-/
import Dotten.Http.HttpParsing

namespace Dotten

open Dotten.Library

/-- The name and the value that a header is set to; `none` is NULL. -/
abbrev HeaderCall := Option CString × Option CString

/-- Calls of `ten_http_request_set_header`, one after another: their return
codes and the request. -/
def setRequestHeaders (request : TenHttpRequest) :
    List HeaderCall → Ten (List TenErrorCode × TenHttpRequest)
  | [] => pure ([], request)
  | (name, value) :: calls => do
      let (code, request) ← tenHttpRequestSetHeader request name value
      let (codes, request) ← setRequestHeaders request calls
      return (code :: codes, request)

/-- The headers of the calls that returned TEN_OK. -/
def successful (calls : List HeaderCall) (codes : List TenErrorCode) : List (CString × CString) :=
  (calls.zip codes).filterMap fun
    | ((some name, some value), .ok) => some (name, value)
    | _ => none

/-- The value that a name was set to last, up to letter case. -/
def lastValue (name : CString) (sets : List (CString × CString)) : Option CString :=
  (sets.reverse.find? fun set => foldCase set.1 = foldCase name).map Prod.snd

/-- The request holds what was set: each name once, in its first spelling and in
the order of first appearance, with the value that it was set to last. -/
structure HeaderStore (sets : List (CString × CString)) (request : TenHttpRequest) : Prop where
  distinct : (request.headers.pairs.map fun pair => foldCase pair.1).Nodup
  names : request.headers.pairs.map Prod.fst =
    OrderedMap.firstSpellings foldCase (sets.map Prod.fst)
  values : ∀ name grants world,
    Returns (tenHttpRequestHeader (some request) (some name)) grants world (fun reply _ =>
      reply = lastValue name sets)

/-- The header that a line holds: the bytes before its first colon, and those
behind it without leading spaces. -/
def lineHeader (line : Bytes) : Option (CString × CString) :=
  (strchr line (ascii ':')).map fun parts =>
    (CString.ofMemory parts.1, CString.ofMemory (parts.2.dropWhile (· = ascii ' ')))

/-- The lines of a text that are not empty, as many as a number of pieces has. -/
def linesWithin (bound : Nat) (text : Bytes) : List Bytes :=
  (piecesWithin crlf bound text).filter (· ≠ [])

/-- The lines of a block that are not empty. -/
def blockLines (block : Bytes) : List Bytes := linesWithin (block.length + 1) block

/-- The headers on the lines of a block, as they are set. -/
def lineCalls (lines : List Bytes) : List HeaderCall :=
  (lines.filterMap lineHeader).map fun header => (some header.1, some header.2)

/-- The content length that lines announce. -/
def announcedBy (lines : List Bytes) (before : Int) : Int :=
  (lines.filterMap lineHeader).foldl announcedLength before

section Store

variable {request : TenHttpRequest} {sets : List (CString × CString)}

theorem headerStore_of_pairs (pairs : request.headers.pairs = OrderedMap.ofList foldCase sets) :
    HeaderStore sets request where
  distinct := by
    rw [pairs]
    exact OrderedMap.distinct_ofList foldCase sets
  names := by
    rw [pairs, OrderedMap.map_fst_ofList]
  values := by
    intro name grants world
    simp only [tenHttpRequestHeader, returns_bind, returns_tenSetError, returns_pure]
    rw [tenHttpHeadersGet_eq_lookup, pairs, OrderedMap.lookup_ofList]
    rfl

theorem successful_cons (call : HeaderCall) (calls : List HeaderCall) (code : TenErrorCode)
    (codes : List TenErrorCode) :
    successful (call :: calls) (code :: codes) =
      successful [call] [code] ++ successful calls codes := by
  unfold successful
  rw [List.zip_cons_cons, ← List.singleton_append, List.filterMap_append]
  rfl

end Store

section Calls

variable {grants : Schedule} {world : World}

/-- A set that succeeds is an insertion; one that fails changes no pair. -/
theorem tenHttpRequestSetHeader_spec (request : TenHttpRequest) (name value : Option CString) :
    Returns (tenHttpRequestSetHeader request name value) grants world (fun reply _ =>
      reply.2.headers.pairs = (successful [(name, value)] [reply.1]).foldl
        (fun built set => OrderedMap.insert foldCase set.1 set.2 built) request.headers.pairs ∧
      (reply.1 ≠ .ok → reply.2.headers.pairs = request.headers.pairs)) := by
  unfold tenHttpRequestSetHeader tenHttpSetHeader
  cases name with
  | none =>
      simp only [returns_bind, returns_tenSetError, returns_pure]
      exact ⟨rfl, fun _ => trivial⟩
  | some name =>
      cases value with
      | none =>
          simp only [returns_bind, returns_tenSetError, returns_pure]
          exact ⟨rfl, fun _ => trivial⟩
      | some value =>
          simp only [returns_bind]
          apply (tenHttpHeadersSet_spec request.headers name value).mono
          rintro ⟨code, after⟩ _ outcome
          rw [returns_pure]
          cases outcome with
          | set pairs => exact ⟨pairs, fun failed => absurd rfl failed⟩
          | refused shortage pairs => exact ⟨pairs, fun _ => pairs⟩

theorem setRequestHeaders_spec (calls : List HeaderCall) :
    ∀ {request : TenHttpRequest} {world : World},
      Returns (setRequestHeaders request calls) grants world (fun reply _ =>
        reply.1.length = calls.length ∧
          reply.2.headers.pairs = (successful calls reply.1).foldl
            (fun built set => OrderedMap.insert foldCase set.1 set.2 built)
            request.headers.pairs) := by
  induction calls with
  | nil =>
      intro request world
      rw [setRequestHeaders, returns_pure]
      exact ⟨rfl, rfl⟩
  | cons call calls inductionHypothesis =>
      intro request world
      rw [setRequestHeaders, returns_bind]
      apply (tenHttpRequestSetHeader_spec request call.1 call.2).mono
      rintro ⟨code, between⟩ _ ⟨pairs, -⟩
      rw [returns_bind]
      apply inductionHypothesis.mono
      rintro ⟨codes, after⟩ _ ⟨length, later⟩
      rw [returns_pure]
      refine ⟨congrArg (· + 1) length, ?_⟩
      rw [successful_cons, List.foldl_append, ← pairs]
      exact later

/-- When no request is refused, the headers that are named are all set. -/
theorem setRequestHeaders_sets (ample : Ample grants) (sets : List (CString × CString)) :
    ∀ {request : TenHttpRequest} {world : World},
      Returns (setRequestHeaders request (sets.map fun set => (some set.1, some set.2))) grants
        world (fun reply _ => reply.2.headers.pairs = sets.foldl
          (fun built set => OrderedMap.insert foldCase set.1 set.2 built)
          request.headers.pairs) := by
  induction sets with
  | nil =>
      intro request world
      rw [List.map_nil, setRequestHeaders, returns_pure]
      exact rfl
  | cons set sets inductionHypothesis =>
      intro request world
      simp only [List.map_cons, setRequestHeaders, tenHttpRequestSetHeader, tenHttpSetHeader,
        returns_bind]
      apply (tenHttpHeadersSet_spec request.headers set.1 set.2).mono
      rintro ⟨code, headers⟩ _ outcome
      have pairs := (outcome.of_ample ample).2
      simp only [returns_pure]
      apply (@inductionHypothesis { request with headers } _).mono
      rintro ⟨codes, after⟩ _ later
      rw [List.foldl_cons, ← pairs]
      exact later

/-- Calls on a request without headers. -/
theorem setRequestHeaders_store {request : TenHttpRequest} (empty : request.headers = .none)
    (calls : List HeaderCall) :
    Returns (setRequestHeaders request calls) grants world (fun reply _ =>
      reply.1.length = calls.length ∧ HeaderStore (successful calls reply.1) reply.2) := by
  apply (setRequestHeaders_spec calls).mono
  rintro ⟨codes, after⟩ _ ⟨length, pairs⟩
  rw [empty] at pairs
  exact ⟨length, headerStore_of_pairs pairs⟩

end Calls

section Cutting

variable {bound i : Nat} {text : Bytes}

theorem linesWithin_nil : linesWithin (bound + 1) [] = [] := by
  simp [linesWithin, piecesWithin, findSlice]

theorem linesWithin_last (nonempty : text ≠ []) (found : findSlice crlf text = none) :
    linesWithin (bound + 1) text = [text] := by
  simp [linesWithin, piecesWithin, found, nonempty]

theorem linesWithin_blank (found : findSlice crlf text = some i) (blank : text.take i = []) :
    linesWithin (bound + 1) text = linesWithin bound (text.drop (i + crlf.length)) := by
  rw [linesWithin, piecesWithin, found]
  dsimp only
  rw [List.filter_cons_of_neg (by simp [blank])]
  rfl

theorem linesWithin_line (found : findSlice crlf text = some i) (line : text.take i ≠ []) :
    linesWithin (bound + 1) text =
      text.take i :: linesWithin bound (text.drop (i + crlf.length)) := by
  rw [linesWithin, piecesWithin, found]
  dsimp only
  rw [List.filter_cons_of_pos (by simpa using line)]
  rfl

end Cutting

section Steps

variable {γ : Type} {firstLineFn : TenFirstLineFn γ} {steps i : Nat} {text : Bytes}
  {firstLine : Bool} {contentLength : Int} {headers : TenHttpHeaders} {ctx : γ}

/-- The step of the loop that reads the last line, behind which the cursor is
NULL. -/
theorem tenHttpParseHeadersLoop_last (nonempty : text ≠ []) (found : findSlice crlf text = none) :
    tenHttpParseHeadersLoop firstLineFn (steps + 2) (some text) firstLine contentLength headers
        ctx =
      if firstLine then
        firstLineFn text ctx >>= fun reply =>
          if reply.1 then pure (contentLength, headers, reply.2) else pure (-2, headers, reply.2)
      else
        tenHttpParseHeaderLine text headers contentLength >>= fun reply =>
          pure (reply.2, reply.1, ctx) := by
  obtain ⟨c, rest, rfl⟩ := List.exists_cons_of_ne_nil nonempty
  simp only [tenHttpParseHeadersLoop, strstr, found, Option.map_none, if_neg nonempty]
  cases firstLine <;> rfl

theorem tenHttpParseHeadersLoop_blank (found : findSlice crlf text = some i)
    (blank : text.take i = []) :
    tenHttpParseHeadersLoop firstLineFn (steps + 1) (some text) firstLine contentLength headers
        ctx =
      tenHttpParseHeadersLoop firstLineFn steps (some (text.drop (i + crlf.length))) firstLine
        contentLength headers ctx := by
  cases text with
  | nil => cases found
  | cons c rest =>
      simp only [tenHttpParseHeadersLoop, strstr, found, Option.map_some, if_pos blank]

theorem tenHttpParseHeadersLoop_text (found : findSlice crlf text = some i)
    (line : text.take i ≠ []) :
    tenHttpParseHeadersLoop firstLineFn (steps + 1) (some text) firstLine contentLength headers
        ctx =
      if firstLine then
        firstLineFn (text.take i) ctx >>= fun reply =>
          if reply.1 then
            tenHttpParseHeadersLoop firstLineFn steps (some (text.drop (i + crlf.length))) false
              contentLength headers reply.2
          else pure (-2, headers, reply.2)
      else
        tenHttpParseHeaderLine (text.take i) headers contentLength >>= fun reply =>
          tenHttpParseHeadersLoop firstLineFn steps (some (text.drop (i + crlf.length))) firstLine
            reply.2 reply.1 ctx := by
  cases text with
  | nil => cases found
  | cons c rest =>
      simp only [tenHttpParseHeadersLoop, strstr, found, Option.map_some, if_neg line]

end Steps

section Lines

variable {γ : Type} {firstLineFn : TenFirstLineFn γ}

theorem setRequestHeaders_append (first second : List HeaderCall) (request : TenHttpRequest) :
    setRequestHeaders request (first ++ second) =
      setRequestHeaders request first >>= fun earlier =>
        setRequestHeaders earlier.2 second >>= fun later =>
          pure (earlier.1 ++ later.1, later.2) := by
  induction first generalizing request with
  | nil => simp [setRequestHeaders]
  | cons call first inductionHypothesis =>
      simp only [List.cons_append, setRequestHeaders, inductionHypothesis, bind_assoc, pure_bind]

/-- A line sets the header on it, if there is one. -/
theorem tenHttpParseHeaderLine_eq (line : Bytes) (request : TenHttpRequest) (contentLength : Int) :
    tenHttpParseHeaderLine line request.headers contentLength =
      setRequestHeaders request (lineCalls [line]) >>= fun reply =>
        pure (reply.2.headers, announcedBy [line] contentLength) := by
  rw [tenHttpParseHeaderLine, lineCalls, announcedBy, List.filterMap_cons, lineHeader]
  cases strchr line (ascii ':') with
  | none => rfl
  | some parts =>
      simp only [Option.map_some, List.filterMap_nil, List.map_cons, List.map_nil,
        setRequestHeaders, tenHttpRequestSetHeader, tenHttpSetHeader, bind_assoc, pure_bind,
        tenCiStrcmp_eq_zero_iff]
      rfl

theorem lineCalls_cons (line : Bytes) (lines : List Bytes) :
    lineCalls (line :: lines) = lineCalls [line] ++ lineCalls lines := by
  unfold lineCalls
  rw [← List.map_append, ← List.filterMap_append, List.singleton_append]

theorem announcedBy_cons (line : Bytes) (lines : List Bytes) (before : Int) :
    announcedBy (line :: lines) before = announcedBy lines (announcedBy [line] before) := by
  unfold announcedBy
  rw [← List.foldl_append, ← List.filterMap_append, List.singleton_append]

/-- Behind the first line, the loop sets the headers on the lines. -/
theorem tenHttpParseHeadersLoop_sets {ctx : γ} :
    ∀ {steps : Nat} {text : Bytes} {contentLength : Int} {request : TenHttpRequest},
      text.length < steps →
      tenHttpParseHeadersLoop firstLineFn steps (some text) false contentLength request.headers ctx =
        setRequestHeaders request (lineCalls (linesWithin steps text)) >>= fun reply =>
          pure (announcedBy (linesWithin steps text) contentLength, reply.2.headers, ctx) := by
  intro steps
  induction steps with
  | zero =>
      intro text contentLength request enough
      omega
  | succ steps inductionHypothesis =>
      intro text contentLength request enough
      by_cases nonempty : text ≠ []
      · have positive := List.length_pos_of_ne_nil nonempty
        obtain found | ⟨i, found⟩ := Option.eq_none_or_eq_some (findSlice crlf text)
        · obtain ⟨steps, rfl⟩ : ∃ fewer, steps = fewer + 1 :=
            Nat.exists_eq_succ_of_ne_zero (by omega)
          rw [tenHttpParseHeadersLoop_last nonempty found, linesWithin_last nonempty found,
            if_neg (by simp), tenHttpParseHeaderLine_eq, bind_assoc]
          simp only [pure_bind]
        · have shorter : (text.drop (i + crlf.length)).length < steps := by
            rw [List.length_drop]
            simp only [List.length_cons, List.length_nil]
            omega
          by_cases blank : text.take i = []
          · rw [tenHttpParseHeadersLoop_blank found blank, linesWithin_blank found blank]
            exact inductionHypothesis shorter
          · rw [tenHttpParseHeadersLoop_text found blank, linesWithin_line found blank,
              if_neg (by simp), lineCalls_cons, announcedBy_cons, setRequestHeaders_append,
              tenHttpParseHeaderLine_eq]
            simp only [bind_assoc, pure_bind, inductionHypothesis shorter]
      · rw [ne_eq, not_not] at nonempty
        rw [nonempty, linesWithin_nil, tenHttpParseHeadersLoop]
        rfl

/-- Up to the first line, the loop passes empty lines. -/
theorem tenHttpParseHeadersLoop_firstLine {ctx : γ} {request : TenHttpRequest} :
    ∀ {steps : Nat} {text : Bytes}, text.length < steps →
      tenHttpParseHeadersLoop firstLineFn steps (some text) true (-1) request.headers ctx =
        match linesWithin steps text with
        | [] => pure (-2, request.headers, ctx)
        | first :: lines =>
            firstLineFn first ctx >>= fun reply =>
              if reply.1 then
                setRequestHeaders request (lineCalls lines) >>= fun sets =>
                  pure (announcedBy lines (-1), sets.2.headers, reply.2)
              else pure (-2, request.headers, reply.2) := by
  intro steps
  induction steps with
  | zero =>
      intro text enough
      omega
  | succ steps inductionHypothesis =>
      intro text enough
      by_cases nonempty : text ≠ []
      · have positive := List.length_pos_of_ne_nil nonempty
        obtain found | ⟨i, found⟩ := Option.eq_none_or_eq_some (findSlice crlf text)
        · obtain ⟨steps, rfl⟩ : ∃ fewer, steps = fewer + 1 :=
            Nat.exists_eq_succ_of_ne_zero (by omega)
          rw [tenHttpParseHeadersLoop_last nonempty found, linesWithin_last nonempty found,
            if_pos rfl]
          rfl
        · have shorter : (text.drop (i + crlf.length)).length < steps := by
            rw [List.length_drop]
            simp only [List.length_cons, List.length_nil]
            omega
          by_cases blank : text.take i = []
          · rw [tenHttpParseHeadersLoop_blank found blank, linesWithin_blank found blank]
            exact inductionHypothesis shorter
          · rw [tenHttpParseHeadersLoop_text found blank, linesWithin_line found blank, if_pos rfl]
            simp only [tenHttpParseHeadersLoop_sets shorter]
      · rw [ne_eq, not_not] at nonempty
        rw [nonempty, linesWithin_nil, tenHttpParseHeadersLoop]
        rfl

/-- `ten__http_parse_headers_text` calls back with the first line that is not
empty, and sets the headers on the others. -/
theorem tenHttpParseHeadersText_sets (text : CString) (request : TenHttpRequest) (ctx : γ) :
    tenHttpParseHeadersText text request.headers firstLineFn ctx =
      match blockLines text.bytes with
      | [] => pure (-2, request.headers, ctx)
      | first :: lines =>
          firstLineFn first ctx >>= fun reply =>
            if reply.1 then
              setRequestHeaders request (lineCalls lines) >>= fun sets =>
                pure (announcedBy lines (-1), sets.2.headers, reply.2)
            else pure (-2, request.headers, reply.2) :=
  tenHttpParseHeadersLoop_firstLine (Nat.lt_succ_self _)

end Lines

/-- Whatever is set in a request without headers, and whatever is refused, the
headers that have been set are stored as a map, and a call that fails changes
none of them; and parsing a block is to set the headers on its lines. -/
theorem tenHttpHeaders_store (request : TenHttpRequest) :
    (∀ (calls : List HeaderCall) (name value : Option CString) (grants : Schedule) (world : World),
      Returns (do
        let (codes, before) ← setRequestHeaders { request with headers := .none } calls
        let (code, after) ← tenHttpRequestSetHeader before name value
        return (codes, before, code, after)) grants world (fun (codes, before, code, after) _ =>
          codes.length = calls.length ∧ HeaderStore (successful calls codes) before ∧
            (code ≠ .ok → after.headers.pairs = before.headers.pairs))) ∧
    ∀ (γ : Type) (firstLineFn : TenFirstLineFn γ) (text : CString) (ctx : γ),
      tenHttpParseHeadersText text .none firstLineFn ctx =
        match blockLines text.bytes with
        | [] => pure (-2, .none, ctx)
        | first :: lines => do
            let (accepted, ctx) ← firstLineFn first ctx
            if accepted then
              let (_, after) ← setRequestHeaders { request with headers := .none } (lineCalls lines)
              return (announcedBy lines (-1), after.headers, ctx)
            else
              return (-2, .none, ctx) := by
  constructor
  · intro calls name value grants world
    rw [returns_bind]
    apply (setRequestHeaders_store rfl calls).mono
    rintro ⟨codes, before⟩ _ ⟨length, store⟩
    rw [returns_bind]
    apply (tenHttpRequestSetHeader_spec before name value).mono
    rintro ⟨code, after⟩ _ ⟨-, kept⟩
    rw [returns_pure]
    exact ⟨length, store, kept⟩
  · intro γ firstLineFn text ctx
    exact tenHttpParseHeadersText_sets text { request with headers := .none } ctx

end Dotten
