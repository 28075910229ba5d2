/-
Module: Dotten.Http.HttpTruncation
Layer: Http
Purpose: When the body of a received message is as long as its headers say:
  whatever is refused, exactly when there is nothing to lose, and without refusals
  exactly when all of it arrives, for a body that is cut short is passed on like
  a whole one.
Imports: Dotten.Http.HttpShortReception
Main exports: IsNumeral, CarriesWholeBody, BodyArrives, NothingToLose,
  readMessage_whole_iff, tenHttp_wholeBodies_iff
-/
import Dotten.Http.HttpShortReception

namespace Dotten

open Dotten.Library

/-- The text is a decimal numeral of a number. -/
def IsNumeral (text : Bytes) (n : Nat) : Prop :=
  text ≠ [] ∧ (∀ b ∈ text, isDigit b = true) ∧ leadingNumber text = n

theorem IsNumeral.atol {text : Bytes} {n : Nat} (numeral : IsNumeral text n) : atol text = n := by
  obtain ⟨nonempty, digits, rfl⟩ := numeral
  obtain ⟨first, rest, rfl⟩ := List.exists_cons_of_ne_nil nonempty
  exact atol_of_isDigit (digits first List.mem_cons_self)

/-- Headers announce a body of `n` bytes. -/
def AnnouncesLength (headers : List (CString × CString)) (n : Nat) : Prop :=
  ∃ value : CString, OrderedMap.lookup foldCase contentLengthName headers = some value ∧
    IsNumeral value.bytes n

/-- A body has as many bytes as the headers say, and they are those that follow
the header block of the stream. -/
def CarriesWholeBody (stream : Bytes) (headers : TenHttpHeaders) (body : Option TenBuffer) :
    Prop :=
  ∀ (value : CString) (n : Nat), tenHttpHeadersGet headers contentLengthName = some value →
    IsNumeral value.bytes n →
    (bodyBytes body).length = n ∧
      ∃ i, findSlice (crlf ++ crlf) stream = some i ∧ bodyBytes body = (stream.drop (i + 4)).take n

theorem carriesWholeBody_iff {stream : Bytes} {headers : TenHttpHeaders}
    {body : Option TenBuffer} :
    CarriesWholeBody stream headers body ↔ ∀ n, AnnouncesLength headers.pairs n →
      (bodyBytes body).length = n ∧ ∃ i, findSlice (crlf ++ crlf) stream = some i ∧
        bodyBytes body = (stream.drop (i + 4)).take n := by
  unfold CarriesWholeBody AnnouncesLength
  simp only [tenHttpHeadersGet_eq_lookup]
  constructor
  · rintro whole n ⟨value, stored, numeral⟩
    exact whole value n stored numeral
  · intro whole value n stored numeral
    exact whole n ⟨value, stored, numeral⟩

/-- All bytes of the body that the headers of a stream announce arrive: before
the peer closes the connection, and before a `recv` fails. -/
def BodyArrives {γ : Type} (transport : Transport) (parts : Bytes → Option γ) (sock : TenSocket) :
    Prop :=
  ∀ i, BlockArrives transport sock i →
    ∀ read, readBlock parts (sock.incoming.take i) = some read →
    ∀ n, AnnouncesLength read.2.1 n → Arrives transport sock (i + 4 + n)

/-- No line of the header block announces a byte, and where one announces that
there are none, none arrives that is read as the body. -/
def NothingToLose {γ : Type} (transport : Transport) (parts : Bytes → Option γ)
    (sock : TenSocket) : Prop :=
  ∀ i, BlockArrives transport sock i →
    ∀ read, readBlock parts (sock.incoming.take i) = some read →
    ∀ value n, LengthLine (sock.incoming.take i) value → IsNumeral value.bytes n →
      n = 0 ∧ (read.1 ≤ 0 ∨ ¬ Arrives transport sock (i + 5))

section Headers

/-- The content length that has been read is that of the header that is
stored. -/
def LengthStored (read : Int × List (CString × CString)) : Prop :=
  ∀ value, OrderedMap.lookup foldCase contentLengthName read.2 = some value →
    read.1 = atol value.bytes

theorem LengthStored.readLine {read : Int × List (CString × CString)} (stored : LengthStored read)
    (line : Bytes) : LengthStored (readLine read line) := by
  rw [Dotten.readLine]
  cases lineHeader line with
  | none => exact stored
  | some header =>
      intro value found
      dsimp only at found ⊢
      rw [OrderedMap.lookup_insert] at found
      rw [announcedLength]
      by_cases named : foldCase header.1 = foldCase contentLengthName
      · rw [if_pos named] at found ⊢
        cases found
        rfl
      · rw [if_neg named] at found ⊢
        exact stored value found

theorem LengthStored.foldl {read : Int × List (CString × CString)} (lines : List Bytes)
    (stored : LengthStored read) : LengthStored (lines.foldl Dotten.readLine read) := by
  induction lines generalizing read with
  | nil => exact stored
  | cons line rest inductionHypothesis => exact inductionHypothesis (stored.readLine line)

/-- An announced length is the one that the parser returns. -/
theorem readBlock_length {γ : Type} {parts : Bytes → Option γ} {block : Bytes}
    {read : Int × List (CString × CString) × γ} (parsed : readBlock parts block = some read)
    {n : Nat} (announced : AnnouncesLength read.2.1 n) : read.1 = n := by
  obtain ⟨value, found, numeral⟩ := announced
  rw [readBlock] at parsed
  split at parsed
  · cases parsed
  · rename_i first lines _
    split at parsed
    · cases parsed
    · dsimp only at parsed
      split at parsed
      · cases parsed
      · cases parsed
        have empty : LengthStored (-1, []) := by
          intro value found
          cases found
        rw [← numeral.atol]
        exact empty.foldl lines value found

end Headers

section Bodies

variable {transport : Transport} {γ : Type} {parts : Bytes → Option γ} {sock : TenSocket}

/-- The body of a message is whole exactly when all of it arrives. -/
theorem readMessage_whole_iff :
    (∀ message, readMessage transport parts sock = some message →
      ∀ n, AnnouncesLength message.headers n → message.body.length = n ∧
        ∃ i, findSlice (crlf ++ crlf) sock.incoming = some i ∧
          message.body = (sock.incoming.drop (i + 4)).take n) ↔
      BodyArrives transport parts sock := by
  unfold BodyArrives
  rw [readMessage]
  cases outcome : headersReceived transport sock.incoming (sock.incoming.length + 1)
      sock.receiveCalls 0 with
  | none =>
      have never : ∀ i, ¬ BlockArrives transport sock i := by
        intro i arrives
        obtain ⟨calls, received, reached⟩ := headersReceived_iff.mpr arrives
        rw [outcome] at reached
        cases reached
      simp [never]
  | some place =>
      obtain ⟨i, calls, received⟩ := place
      have arrives : BlockArrives transport sock i := headersReceived_iff.mp ⟨_, _, outcome⟩
      have only : ∀ j, BlockArrives transport sock j → j = i := by
        intro j other
        exact Option.some.inj (other.1.symm.trans arrives.1)
      dsimp only
      cases parsed : readBlock parts (sock.incoming.take i) with
      | none =>
          constructor
          · rintro - j other read same
            rw [only j other, parsed] at same
            cases same
          · rintro - message ⟨⟩
      | some block =>
          constructor
          · intro whole j other read same n announced
            rw [only j other] at same ⊢
            rw [parsed] at same
            cases same
            obtain ⟨length, -⟩ := whole _ rfl n announced
            dsimp only at length announced
            rw [readBlock_length parsed announced, Int.toNat_natCast, List.length_take] at length
            exact ((le_bodyReceived_iff n n outcome).mp (by omega)).2
          · intro all message same n announced
            cases same
            dsimp only at announced ⊢
            have enough := (le_bodyReceived_iff n n outcome).mpr
              ⟨Nat.le_refl n, all i arrives block parsed n announced⟩
            have sent := (all i arrives block parsed n announced).1
            have most := (le_bodyReceived_iff n _ outcome).mp (Nat.le_refl _)
            rw [readBlock_length parsed announced, Int.toNat_natCast,
              Nat.le_antisymm most.1 enough, List.length_take, List.length_drop]
            exact ⟨by omega, i, arrives.1, rfl⟩

/-- When the stream is only cut into chunks, what the peer has sent arrives. -/
theorem arrives_of_segments (segments : transport.Segments) {amount : Nat} :
    Arrives transport sock amount ↔ amount ≤ sock.incoming.length := by
  constructor
  · exact And.left
  · intro sent
    exact ⟨sent, amount, fun i _ => segments _, Transport.le_movesIn⟩

end Bodies

section Messages

variable {transport : Transport} {γ : Type} {parts : Bytes → Option γ} {sock : TenSocket}

/-- Where there is nothing to lose, every message that is received is whole. -/
theorem ShortMessage.whole {message : HttpMessage γ}
    (short : ShortMessage transport parts sock message)
    (nothing : NothingToLose transport parts sock) {n : Nat}
    (announced : AnnouncesLength message.headers n) :
    message.body.length = n ∧ ∃ i, findSlice (crlf ++ crlf) sock.incoming = some i ∧
      message.body = (sock.incoming.drop (i + 4)).take n := by
  obtain ⟨i, read, arrives, parsed, stored, empty⟩ := short
  obtain ⟨value, found, numeral⟩ := announced
  obtain ⟨rfl, lost⟩ := nothing i arrives read parsed value n (stored value found) numeral
  rw [empty lost]
  exact ⟨rfl, i, arrives.1, rfl⟩

/-- What refusals can lead to is a message that is not whole, unless there is
nothing to lose. -/
theorem nothingToLose_of_leads
    (whole : ∀ (keep : Bool) (i : Nat), BlockArrives transport sock i →
      ∀ read, readBlock parts (sock.incoming.take i) = some read →
      ∀ value, LengthLine (sock.incoming.take i) value →
      ∃ message : HttpMessage γ, LeadsTo transport keep sock i read.1 value message ∧
        ∀ n, AnnouncesLength message.headers n → message.body.length = n) :
    NothingToLose transport parts sock := by
  intro i arrives read parsed value n line numeral
  obtain ⟨lost, ⟨storedLost, emptyLost⟩, lengthLost⟩ :=
    whole false i arrives read parsed value line
  obtain ⟨kept, ⟨storedKept, emptyKept⟩, lengthKept⟩ :=
    whole true i arrives read parsed value line
  have none : n = 0 := by
    rw [← lengthLost n ⟨value, storedLost, numeral⟩, emptyLost.mpr (.inl rfl), List.length_nil]
  have length := lengthKept n ⟨value, storedKept, numeral⟩
  rw [none, List.length_eq_zero_iff, emptyKept] at length
  exact ⟨none, length.resolve_left (by simp)⟩

end Messages

section Connections

variable {transport : Transport}

/-- The handler is called with whole bodies only. -/
def HandlesWhole (grants : Schedule) (world : World) (transport : Transport)
    (handler : TenHttpHandler) (client : TenSocket) : Prop :=
  Returns (tenHttpHandleConnection transport handler client) grants world (fun reply _ =>
    ∀ request, reply.1 = some request →
      CarriesWholeBody client.incoming request.headers request.body)

/-- The client returns whole bodies only, and reports an error when it returns no
response. -/
def ReturnsWhole (grants : Schedule) (world : World) (transport : Transport) (sock : TenSocket)
    (host : CString) (request : TenHttpRequest) : Prop :=
  Returns (tenHttpClientSend transport (.ok sock) (some host) (some request)) grants world
    (fun reply after =>
      (∀ response, reply = some response →
        CarriesWholeBody sock.incoming response.headers response.body) ∧
      (reply = none → after.lastError ≠ .ok))

/-- Without refusals the handler sees whole bodies exactly when all of the body
arrives. -/
theorem handlesWhole_iff_of_ample {grants : Schedule} (ample : Ample grants) (world : World)
    (handler : TenHttpHandler) (client : TenSocket) :
    HandlesWhole grants world transport handler client ↔
      BodyArrives transport requestLineParts client := by
  obtain ⟨reply, after, run, read⟩ :
      Returns (tenHttpHandleConnection transport handler client) grants world (fun reply _ =>
        reply.1.map TenHttpRequest.content = readMessage transport requestLineParts client) :=
    tenHttpHandleConnection_read ample handler client
  rw [HandlesWhole, returns_iff_of_run run, ← readMessage_whole_iff, ← read]
  simp only [Option.map_eq_some_iff, forall_exists_index, and_imp, forall_apply_eq_imp_iff₂,
    carriesWholeBody_iff]
  exact Iff.rfl

/-- Whatever is refused, the handler sees whole bodies exactly when there is
nothing to lose. -/
theorem handlesWhole_iff (handler : TenHttpHandler) (client : TenSocket) :
    (∀ grants world, HandlesWhole grants world transport handler client) ↔
      NothingToLose transport requestLineParts client := by
  constructor
  · intro whole
    apply nothingToLose_of_leads
    intro keep i arrives read parsed value line
    obtain ⟨grants, leads⟩ :=
      tenHttpHandleConnection_leads handler keep arrives parsed line default
    obtain ⟨reply, -, -, ⟨request, same, leads⟩, wholeHere⟩ := leads.and (whole grants default)
    refine ⟨request.content, leads, fun n announced => ?_⟩
    exact (carriesWholeBody_iff.mp (wholeHere request same) n announced).1
  · intro nothing grants world
    apply (tenHttpHandleConnection_short handler client).mono
    intro reply _ short request same
    exact carriesWholeBody_iff.mpr fun n announced =>
      (short request same).whole nothing announced

/-- Without refusals the client returns whole bodies exactly when all of the body
arrives, unless the request could not be sent. -/
theorem returnsWhole_iff_of_ample {grants : Schedule} (ample : Ample grants) (world : World)
    (sock : TenSocket) {request : TenHttpRequest} {path : CString}
    (located : request.path = some path) (host : CString) :
    ReturnsWhole grants world transport sock host request ↔
      (RequestSent grants world transport sock request host →
        BodyArrives transport responseLineStatus sock) := by
  obtain ⟨reply, after, run, received, unsent, answered⟩ :
      Returns (tenHttpClientSend transport (.ok sock) (some host) (some request)) grants world
        (fun reply after =>
          (RequestSent grants world transport sock request host →
            reply.map TenHttpResponse.content = readMessage transport responseLineStatus sock) ∧
          (¬ RequestSent grants world transport sock request host → reply = none) ∧
          (after.lastError = .ok ↔ reply.isSome = true)) :=
    tenHttpClientSend_read ample sock located host
  rw [ReturnsWhole, returns_iff_of_run run, ← readMessage_whole_iff]
  have reported : reply = none → after.lastError ≠ .ok := by
    rintro rfl ok
    simpa using answered.mp ok
  by_cases sent : RequestSent grants world transport sock request host
  · simp only [sent, true_imp_iff, ← received sent, and_iff_left reported,
      Option.map_eq_some_iff, forall_exists_index, and_imp, forall_apply_eq_imp_iff₂,
      carriesWholeBody_iff]
    exact Iff.rfl
  · rw [unsent sent]
    simp [sent, reported (unsent sent)]

/-- Whatever is refused, the client returns whole bodies exactly when there is
nothing to lose. -/
theorem returnsWhole_iff (sock : TenSocket) {request : TenHttpRequest} {path : CString}
    (located : request.path = some path) (host : CString) :
    (∀ grants world, ReturnsWhole grants world transport sock host request) ↔
      NothingToLose transport responseLineStatus sock := by
  constructor
  · intro whole
    apply nothingToLose_of_leads
    intro keep i arrives read parsed value line
    obtain ⟨grants, leads⟩ :=
      tenHttpClientSend_leads keep located host arrives parsed line default
    obtain ⟨reply, -, -, ⟨response, same, leads⟩, wholeHere, -⟩ := leads.and (whole grants default)
    refine ⟨response.content, leads, fun n announced => ?_⟩
    exact (carriesWholeBody_iff.mp (wholeHere response same) n announced).1
  · intro nothing grants world
    apply (tenHttpClientSend_short sock located host).mono
    rintro reply _ ⟨short, reported⟩
    refine ⟨fun response same => carriesWholeBody_iff.mpr fun n announced => ?_, reported⟩
    exact (short response same).whole nothing announced

/-- Handlers and callers of the client get whole bodies, whatever is refused,
exactly when there is nothing to lose; when nothing is refused, exactly when all
of the body arrives. -/
theorem tenHttp_wholeBodies_iff (transport : Transport) (handler : TenHttpHandler)
    (sock : TenSocket) {request : TenHttpRequest} {path : CString}
    (located : request.path = some path) (host : CString) :
    ((∀ grants world, HandlesWhole grants world transport handler sock) ↔
      NothingToLose transport requestLineParts sock) ∧
    ((∀ grants world, ReturnsWhole grants world transport sock host request) ↔
      NothingToLose transport responseLineStatus sock) ∧
    ∀ grants world, Ample grants →
      (HandlesWhole grants world transport handler sock ↔
        BodyArrives transport requestLineParts sock) ∧
      (ReturnsWhole grants world transport sock host request ↔
        (RequestSent grants world transport sock request host →
          BodyArrives transport responseLineStatus sock)) :=
  ⟨handlesWhole_iff handler sock, returnsWhole_iff sock located host,
    fun _ world ample => ⟨handlesWhole_iff_of_ample ample world handler sock,
      returnsWhole_iff_of_ample ample world sock located host⟩⟩

end Connections

/-- An upload of five bytes of which the peer has sent two. -/
def cutUpload : Bytes := literal "PUT /a HTTP/1.1\r\nContent-Length: 5\r\n\r\nab"

/-- A handler that leaves the response as it is. -/
def idleHandler : TenHttpHandler := fun _ response _ world => (response, world)

theorem tenHttp_wholeBodies_iff_cutUpload :
    ((∀ grants world,
        HandlesWhole grants world bytewise idleHandler (.connected cutUpload)) ↔
      NothingToLose bytewise requestLineParts (.connected cutUpload)) ∧
    (HandlesWhole (fun _ => true) default bytewise idleHandler (.connected cutUpload) ↔
      BodyArrives bytewise requestLineParts (.connected cutUpload)) :=
  have whole := tenHttp_wholeBodies_iff bytewise idleHandler (.connected cutUpload)
    (rfl : TenHttpRequest.path ⟨.get, some (literalString "/"), .none, none⟩ = _)
    (literalString "h")
  ⟨whole.1, (whole.2.2 (fun _ => true) default ample_always).1⟩

/-- The handler gets the two bytes as if they were the upload. -/
theorem tenHttpHandleConnection_cutUpload :
    ¬ HandlesWhole (fun _ => true) default bytewise idleHandler (.connected cutUpload) := by
  intro whole
  have arrives : BodyArrives bytewise requestLineParts (.connected cutUpload) :=
    (handlesWhole_iff_of_ample ample_always _ _ _).mp whole
  have segments : bytewise.Segments := bytewise_delivers.segments
  have block : BlockArrives bytewise (.connected cutUpload) 34 := by
    have moved : ∀ count, bytewise.movesIn 0 count = count := by
      intro count
      simp [Transport.movesIn, Transport.moves, bytewise, tenHttpChunkSize]
    refine ⟨by decide, 38, fun _ _ => segments _, (moved 38).ge, fun fewer below => ?_⟩
    change bytewise.movesIn 0 fewer ≤ _
    rw [moved, tenHttpMaxHeaderSize]
    omega
  have parsed : readBlock requestLineParts ((TenSocket.connected cutUpload).incoming.take 34) =
      some (5, [(contentLengthName, literalString "5")],
        { method := .put, path := some (literalString "/a") }) := by decide
  have five : AnnouncesLength [(contentLengthName, literalString "5")] 5 :=
    ⟨literalString "5", by decide, by decide, forall_mem_of_all (by decide), by decide⟩
  have sent := (arrives_of_segments segments).mp (arrives 34 block _ parsed 5 five)
  have length : (TenSocket.connected cutUpload).incoming.length = 40 := rfl
  omega

end Dotten
