import BetterWebBrowser.RendererProtocol.Messages

/-!
# Framing

Every message travels in a frame: a header with the session and a sequence number, and the
payload. The reader takes the frames of its session and direction in the order of their
numbers and refuses everything else, so a stream with frames removed, repeated, moved or
replaced is read up to the first change.
-/

namespace BetterWebBrowser.RendererProtocol

open Framework

def MAGIC : List UInt8 := [66, 82, 90, 49]
def HEADER_LENGTH : Nat := 32
def PROTOCOL_MAJOR : UInt16 := 19
def PROTOCOL_MINOR : UInt16 := 0
def FLAG_NONE : UInt16 := 0

structure RendererSessionId where
  get : UInt64
  ne_zero : get ≠ 0

def putU16 (value : UInt16) : List UInt8 := littleEndian 2 value.toNat
def putU32 (value : UInt32) : List UInt8 := littleEndian 4 value.toNat
def putU64 (value : UInt64) : List UInt8 := littleEndian 8 value.toNat

/-! ## Writing -/

/-- A message on the wire. -/
structure Frame where
  kind : UInt16
  payload : List UInt8
  session : UInt64
  sequence : UInt64
deriving DecidableEq

def Frame.header (frame : Frame) : List UInt8 :=
  MAGIC ++ putU16 PROTOCOL_MAJOR ++ putU16 PROTOCOL_MINOR ++ putU16 frame.kind ++
    putU16 FLAG_NONE ++ putU32 (UInt32.ofNat frame.payload.length) ++ putU64 frame.session ++
    putU64 frame.sequence

def Frame.bytes (frame : Frame) : List UInt8 := frame.header ++ frame.payload

/-- A writer on a sink that never fails. -/
structure FrameWriter where
  inner : List UInt8
  session : RendererSessionId
  nextSequence : UInt64

namespace FrameWriter

def new (session : RendererSessionId) : FrameWriter :=
  { inner := [], session, nextSequence := 1 }

def writeFrame (writer : FrameWriter) (kind : UInt16) (payload : List UInt8) :
    ProtocolResult Unit × FrameWriter :=
  if payload.length > payloadLimit kind then
    (.error (.PayloadTooLarge (UInt32.ofNat payload.length)), writer)
  else
    match checkedAdd 64 writer.nextSequence.toNat 1 with
    | none => (.error .SequenceExhausted, writer)
    | some next =>
      (.ok (), { writer with
        nextSequence := UInt64.ofNat next,
        inner := writer.inner ++ Frame.bytes
          { kind, payload, session := writer.session.get, sequence := writer.nextSequence } })

variable {Message Content : Type}

def send (encode : Message → ProtocolResult (UInt16 × List UInt8)) (writer : FrameWriter)
    (message : Message) : ProtocolResult Unit × FrameWriter :=
  match encode message with
  | .error error => (.error error, writer)
  | .ok (kind, payload) => writer.writeFrame kind payload

def sendBrowser (codec : PayloadCodec Content) (writer : FrameWriter)
    (message : BrowserMessage Content) : ProtocolResult Unit × FrameWriter :=
  writer.send codec.encodeBrowser message

def sendRenderer (codec : PayloadCodec Content) (writer : FrameWriter)
    (message : RendererMessage Content) : ProtocolResult Unit × FrameWriter :=
  writer.send codec.encodeRenderer message

/-- The messages sent in order, whatever becomes of each. -/
def sendAll (encode : Message → ProtocolResult (UInt16 × List UInt8)) (writer : FrameWriter)
    (messages : List Message) : FrameWriter :=
  messages.foldl (fun writer message => (writer.send encode message).2) writer

/-- The frames of the sends that return `Ok`, each with the number the writer had for it. -/
def sent (encode : Message → ProtocolResult (UInt16 × List UInt8)) :
    FrameWriter → List Message → List Frame
  | _, [] => []
  | writer, message :: messages =>
    match writer.send encode message with
    | (.error _, writer') => sent encode writer' messages
    | (.ok (), writer') =>
      match encode message with
      | .error _ => sent encode writer' messages
      | .ok (kind, payload) =>
        { kind, payload, session := writer.session.get, sequence := writer.nextSequence } ::
          sent encode writer' messages

end FrameWriter

/-! ## Reading -/

structure FrameReader where
  inner : List UInt8
  session : RendererSessionId
  nextSequence : UInt64
  maxPayload : Nat

/-- The number in the bytes `header[start..start + width]`. -/
def headerField (header : List UInt8) (start width : Nat) : Nat :=
  fromLittleEndian ((header.drop start).take width)

namespace FrameReader

def new (inner : List UInt8) (session : RendererSessionId) : FrameReader :=
  { inner, session, nextSequence := 1, maxPayload := defaultMaxPayload }

def withMaxPayload (reader : FrameReader) (maximum : Nat) : FrameReader :=
  { reader with maxPayload := min maximum defaultMaxPayload }

/-- The next frame, and the reader behind it. -/
def readFrame (direction : Direction) (reader : FrameReader) :
    ProtocolResult ((UInt16 × List UInt8) × FrameReader) := do
  let (header, rest) ← Reader.take (.Io .UnexpectedEof) HEADER_LENGTH reader.inner
  failIf (header.take 4 ≠ MAGIC) .InvalidMagic
  let major := UInt16.ofNat (headerField header 4 2)
  let minor := UInt16.ofNat (headerField header 6 2)
  failIf (major ≠ PROTOCOL_MAJOR ∨ minor > PROTOCOL_MINOR) (.IncompatibleVersion major minor)
  let kind := UInt16.ofNat (headerField header 8 2)
  failIf (direction.allows kind = false) (.UnexpectedMessage kind)
  let flags := UInt16.ofNat (headerField header 10 2)
  failIf (flags ≠ FLAG_NONE) (.ReservedFlags flags)
  let payloadLength := UInt32.ofNat (headerField header 12 4)
  failIf (payloadLength.toNat > min reader.maxPayload (payloadLimit kind))
    (.PayloadTooLarge payloadLength)
  let session := UInt64.ofNat (headerField header 16 8)
  failIf (session ≠ reader.session.get) (.WrongSession reader.session.get session)
  let sequence := UInt64.ofNat (headerField header 24 8)
  failIf (sequence ≠ reader.nextSequence) (.WrongSequence reader.nextSequence sequence)
  match checkedAdd 64 sequence.toNat 1 with
  | none => .error .SequenceExhausted
  | some next =>
    let (payload, rest) ← Reader.take (.Io .UnexpectedEof) payloadLength.toNat rest
    pure ((kind, payload), { reader with inner := rest, nextSequence := UInt64.ofNat next })

/-- What the reader read, when it read a frame. -/
theorem readFrame_eq_ok {direction : Direction} {reader next : FrameReader} {kind : UInt16}
    {payload : List UInt8} (h : reader.readFrame direction = .ok ((kind, payload), next)) :
    ∃ header, reader.inner = header ++ payload ++ next.inner ∧ header.length = HEADER_LENGTH ∧
      kind = UInt16.ofNat (headerField header 8 2) ∧ direction.allows kind = true ∧
      UInt64.ofNat (headerField header 16 8) = reader.session.get ∧
      UInt64.ofNat (headerField header 24 8) = reader.nextSequence := by
  obtain ⟨⟨header, rest⟩, htake, h⟩ := bind_eq_ok.mp h
  obtain ⟨hinner, hlength⟩ := Reader.run_take_eq_ok.mp htake
  obtain ⟨-, h⟩ := failIf_bind_eq_ok.mp h
  obtain ⟨-, h⟩ := failIf_bind_eq_ok.mp h
  obtain ⟨hallows, h⟩ := failIf_bind_eq_ok.mp h
  obtain ⟨-, h⟩ := failIf_bind_eq_ok.mp h
  obtain ⟨-, h⟩ := failIf_bind_eq_ok.mp h
  obtain ⟨hsession, h⟩ := failIf_bind_eq_ok.mp h
  obtain ⟨hsequence, h⟩ := failIf_bind_eq_ok.mp h
  split at h
  next => cases h
  next =>
    obtain ⟨⟨payload', rest'⟩, htake', h⟩ := bind_eq_ok.mp h
    cases h
    obtain ⟨hrest, -⟩ := Reader.run_take_eq_ok.mp htake'
    refine ⟨header, ?_, hlength, rfl, Bool.not_eq_false _ ▸ hallows, not_not.mp hsession,
      not_not.mp hsequence⟩
    rw [hinner, hrest, List.append_assoc]

theorem readFrame_length {direction : Direction} {reader next : FrameReader}
    {pair : UInt16 × List UInt8} (h : reader.readFrame direction = .ok (pair, next)) :
    next.inner.length < reader.inner.length := by
  obtain ⟨header, hinner, hlength, -⟩ := readFrame_eq_ok h
  rw [hinner, List.length_append, List.length_append, hlength, HEADER_LENGTH]
  omega

/-- The frames up to the first error, where a caller stops, and that error. -/
def readAll (direction : Direction) (reader : FrameReader) :
    List (UInt16 × List UInt8) × ProtocolError :=
  match _h : reader.readFrame direction with
  | .error error => ([], error)
  | .ok (pair, next) =>
    let rest := readAll direction next
    (pair :: rest.1, rest.2)
termination_by reader.inner.length
decreasing_by exact readFrame_length _h

theorem readAll_of_error {direction : Direction} {reader : FrameReader} {error : ProtocolError}
    (h : reader.readFrame direction = .error error) : reader.readAll direction = ([], error) := by
  rw [readAll]
  split
  next other hother =>
    rw [h] at hother
    cases hother
    rfl
  next pair next hother =>
    rw [h] at hother
    cases hother

theorem readAll_of_ok {direction : Direction} {reader next : FrameReader}
    {pair : UInt16 × List UInt8} (h : reader.readFrame direction = .ok (pair, next)) :
    reader.readAll direction =
      (pair :: (next.readAll direction).1, (next.readAll direction).2) := by
  rw [readAll]
  split
  next error hother =>
    rw [h] at hother
    cases hother
  next other after hother =>
    rw [h] at hother
    cases hother
    rfl

/-! ## Reading what was written -/

theorem header_length (frame : Frame) : frame.header.length = HEADER_LENGTH := rfl

private theorem kind_header (frame : Frame) :
    UInt16.ofNat (headerField frame.header 8 2) = frame.kind := by
  have hfield : headerField frame.header 8 2 = fromLittleEndian (putU16 frame.kind) := rfl
  have hbound : frame.kind.toNat < 256 ^ 2 := frame.kind.toNat_lt
  rw [hfield, putU16, fromLittleEndian_littleEndian, Nat.mod_eq_of_lt hbound,
    UInt16.ofNat_toNat]

private theorem payloadLength_header {frame : Frame} (h : frame.payload.length < 2 ^ 32) :
    (UInt32.ofNat (headerField frame.header 12 4)).toNat = frame.payload.length := by
  have hfield : headerField frame.header 12 4 =
      fromLittleEndian (putU32 (UInt32.ofNat frame.payload.length)) := rfl
  have hlength : (UInt32.ofNat frame.payload.length).toNat = frame.payload.length :=
    UInt32.toNat_ofNat_of_lt' h
  rw [hfield, putU32, fromLittleEndian_littleEndian, hlength, UInt32.toNat_ofNat']
  omega

private theorem session_header (frame : Frame) :
    UInt64.ofNat (headerField frame.header 16 8) = frame.session := by
  have hfield : headerField frame.header 16 8 = fromLittleEndian (putU64 frame.session) := rfl
  have hbound : frame.session.toNat < 256 ^ 8 := frame.session.toNat_lt
  rw [hfield, putU64, fromLittleEndian_littleEndian, Nat.mod_eq_of_lt hbound,
    UInt64.ofNat_toNat]

private theorem sequence_header (frame : Frame) :
    UInt64.ofNat (headerField frame.header 24 8) = frame.sequence := by
  have hfield : headerField frame.header 24 8 = fromLittleEndian (putU64 frame.sequence) := rfl
  have hbound : frame.sequence.toNat < 256 ^ 8 := frame.sequence.toNat_lt
  rw [hfield, putU64, fromLittleEndian_littleEndian, Nat.mod_eq_of_lt hbound,
    UInt64.ofNat_toNat]

/-- Only a frame of the right direction, session and number is taken. -/
theorem accepted_of_readFrame {direction : Direction} {reader next : FrameReader} {frame : Frame}
    {rest : List UInt8} {pair : UInt16 × List UInt8} (hinner : reader.inner = frame.bytes ++ rest)
    (h : reader.readFrame direction = .ok (pair, next)) :
    direction.allows frame.kind = true ∧ frame.session = reader.session.get ∧
      frame.sequence = reader.nextSequence := by
  obtain ⟨kind, payload⟩ := pair
  obtain ⟨header, hread, hlength, hkind, hallows, hsession, hsequence⟩ := readFrame_eq_ok h
  have hheader : header = frame.header := by
    rw [hinner, Frame.bytes, List.append_assoc, List.append_assoc] at hread
    exact List.append_inj_left hread.symm (hlength.trans (header_length frame).symm)
  rw [hheader, kind_header] at hkind
  rw [hheader, session_header] at hsession
  rw [hheader, sequence_header] at hsequence
  exact ⟨hkind ▸ hallows, hsession, hsequence⟩

/-- A frame of the right direction, session and number, within the limits, is taken whole. -/
theorem readFrame_frame {direction : Direction} {reader : FrameReader} {frame : Frame}
    {rest : List UInt8} (hinner : reader.inner = frame.bytes ++ rest)
    (hallows : direction.allows frame.kind = true)
    (hlength : frame.payload.length ≤ min reader.maxPayload (payloadLimit frame.kind))
    (hsession : frame.session = reader.session.get) (hsequence : frame.sequence = reader.nextSequence)
    (hnext : frame.sequence.toNat + 1 < 2 ^ 64) :
    reader.readFrame direction = .ok ((frame.kind, frame.payload),
      { reader with inner := rest, nextSequence := UInt64.ofNat (frame.sequence.toNat + 1) }) := by
  have hshort : frame.payload.length < 2 ^ 32 :=
    (hlength.trans ((Nat.min_le_right _ _).trans (payloadLimit_le _))).trans_lt (by decide)
  have hheader : Reader.take (.Io .UnexpectedEof) HEADER_LENGTH reader.inner =
      (.ok (frame.header, frame.payload ++ rest) : ProtocolResult _) := by
    rw [Reader.run_take_eq_ok, hinner, Frame.bytes, List.append_assoc]
    exact ⟨rfl, header_length frame⟩
  have hpayload : Reader.take (.Io .UnexpectedEof)
      (UInt32.ofNat (headerField frame.header 12 4)).toNat (frame.payload ++ rest) =
      (.ok (frame.payload, rest) : ProtocolResult _) := by
    rw [Reader.run_take_eq_ok, payloadLength_header hshort]
    exact ⟨rfl, rfl⟩
  have hchecked : checkedAdd 64 (UInt64.ofNat (headerField frame.header 24 8)).toNat 1 =
      some (frame.sequence.toNat + 1) := by
    rw [sequence_header, checkedAdd_eq_some]
    exact ⟨rfl, hnext⟩
  refine bind_eq_ok.mpr ⟨_, hheader, ?_⟩
  refine failIf_bind_eq_ok.mpr ⟨not_not.mpr rfl, ?_⟩
  refine failIf_bind_eq_ok.mpr ⟨?_, ?_⟩
  · have hmajor : UInt16.ofNat (headerField frame.header 4 2) = PROTOCOL_MAJOR := rfl
    have hminor : UInt16.ofNat (headerField frame.header 6 2) = PROTOCOL_MINOR := rfl
    rw [hmajor, hminor]
    decide
  refine failIf_bind_eq_ok.mpr ⟨?_, ?_⟩
  · rw [kind_header, hallows]
    decide
  refine failIf_bind_eq_ok.mpr ⟨not_not.mpr rfl, ?_⟩
  refine failIf_bind_eq_ok.mpr ⟨?_, ?_⟩
  · rw [kind_header, payloadLength_header hshort]
    exact Nat.not_lt.mpr hlength
  refine failIf_bind_eq_ok.mpr ⟨?_, ?_⟩
  · rw [session_header]
    exact not_not.mpr hsession
  refine failIf_bind_eq_ok.mpr ⟨?_, ?_⟩
  · rw [sequence_header]
    exact not_not.mpr hsequence
  rw [hchecked]
  refine bind_eq_ok.mpr ⟨_, hpayload, ?_⟩
  rw [kind_header]
  rfl

end FrameReader

/-! ## Streams -/

/-- The longest list that both lists start with. -/
def commonPrefix {A : Type} [DecidableEq A] : List A → List A → List A
  | a :: first, b :: second => if a = b then a :: commonPrefix first second else []
  | _, _ => []

/-- Frames of one direction and session that are numbered one after the other. -/
def Numbered (direction : Direction) (session : RendererSessionId) : Nat → List Frame → Prop
  | _, [] => True
  | next, frame :: frames =>
    (direction.allows frame.kind = true ∧ frame.payload.length ≤ payloadLimit frame.kind ∧
      frame.session = session.get ∧ frame.sequence.toNat = next ∧ next + 1 < 2 ^ 64) ∧
    Numbered direction session (next + 1) frames

/-- A stream made from the frames that were sent. At every position it holds one of them, or a
frame of the other direction, of another session, or with another number than the position
calls for. Removing, repeating and moving frames only changes which of them stand where. -/
def Edited (direction : Direction) (session : RendererSessionId) (sent edited : List Frame) : Prop :=
  ∀ index frame, edited[index]? = some frame →
    frame ∈ sent ∨ direction.opposite.Produces frame.kind ∨ frame.session ≠ session.get ∨
      frame.sequence.toNat ≠ index + 1

private theorem Numbered.sequence_at {direction : Direction} {session : RendererSessionId}
    {next index : Nat} {frames : List Frame} {frame : Frame}
    (h : Numbered direction session next frames) (hat : frames[index]? = some frame) :
    frame.sequence.toNat = next + index := by
  induction frames generalizing next index with
  | nil => cases hat
  | cons head frames ih =>
    cases index with
    | zero =>
      cases hat
      exact h.1.2.2.2.1
    | succ index =>
      have hrest := ih h.2 hat
      omega

namespace FrameWriter

variable {Message : Type} {encode : Message → ProtocolResult (UInt16 × List UInt8)}

variable (encode) in
/-- A send that fails leaves the writer as it is; one that succeeds writes one frame. -/
theorem send_cases (writer : FrameWriter) (message : Message) :
    (∃ error, writer.send encode message = (.error error, writer)) ∨
    ∃ kind payload, encode message = .ok (kind, payload) ∧ payload.length ≤ payloadLimit kind ∧
      writer.nextSequence.toNat + 1 < 2 ^ 64 ∧
      writer.send encode message = (.ok (), { writer with
        nextSequence := UInt64.ofNat (writer.nextSequence.toNat + 1),
        inner := writer.inner ++ Frame.bytes
          { kind, payload, session := writer.session.get, sequence := writer.nextSequence } }) := by
  cases hencode : encode message with
  | error error =>
    refine .inl ⟨error, ?_⟩
    rw [send, hencode]
  | ok pair =>
    obtain ⟨kind, payload⟩ := pair
    rw [send, hencode]
    by_cases hlimit : payload.length > payloadLimit kind
    · exact .inl ⟨_, if_pos hlimit⟩
    by_cases hnext : writer.nextSequence.toNat + 1 < 2 ^ 64
    · refine .inr ⟨kind, payload, rfl, Nat.le_of_not_lt hlimit, hnext, ?_⟩
      have hchecked : checkedAdd 64 writer.nextSequence.toNat 1 =
          some (writer.nextSequence.toNat + 1) := if_pos hnext
      show writer.writeFrame kind payload = _
      rw [writeFrame, if_neg hlimit, hchecked]
    · have hchecked : checkedAdd 64 writer.nextSequence.toNat 1 = none := if_neg hnext
      refine .inl ⟨.SequenceExhausted, ?_⟩
      show writer.writeFrame kind payload = _
      rw [writeFrame, if_neg hlimit, hchecked]

theorem failed_send {writer after : FrameWriter} {message : Message} {error : ProtocolError}
    (h : writer.send encode message = (.error error, after)) : after = writer := by
  rcases send_cases encode writer message with
    ⟨other, hfailed⟩ | ⟨kind, payload, -, -, -, hsent⟩
  · rw [h] at hfailed
    exact congrArg Prod.snd hfailed
  · rw [h] at hsent
    cases hsent

/-- What the sends leave on the wire is their frames, numbered one after the other. -/
theorem sendAll_frames {direction : Direction}
    (hkinds : ∀ message kind payload, encode message = .ok (kind, payload) →
      direction.allows kind = true) (writer : FrameWriter) (messages : List Message) :
    (writer.sendAll encode messages).inner =
        writer.inner ++ (writer.sent encode messages).flatMap Frame.bytes ∧
      Numbered direction writer.session writer.nextSequence.toNat (writer.sent encode messages) := by
  induction messages generalizing writer with
  | nil => exact ⟨(List.append_nil _).symm, trivial⟩
  | cons message messages ih =>
    show ((writer.send encode message).2.sendAll encode messages).inner = _ ∧ _
    rcases send_cases encode writer message with
      ⟨error, hfailed⟩ | ⟨kind, payload, hencode, hlimit, hnext, hsent⟩
    · rw [sent, hfailed]
      exact ih writer
    · obtain ⟨hinner, hnumbered⟩ := ih (writer.send encode message).2
      rw [sent, hinner]
      rw [hsent] at hnumbered ⊢
      simp only [hencode]
      rw [List.flatMap_cons, ← List.append_assoc]
      have hsequence : (UInt64.ofNat (writer.nextSequence.toNat + 1)).toNat =
          writer.nextSequence.toNat + 1 := UInt64.toNat_ofNat_of_lt' hnext
      refine ⟨rfl, ⟨hkinds message kind payload hencode, hlimit, rfl, rfl, hnext⟩, ?_⟩
      have hrest : Numbered direction writer.session
        (UInt64.ofNat (writer.nextSequence.toNat + 1)).toNat _ := hnumbered
      rwa [hsequence] at hrest

end FrameWriter

namespace FrameReader

theorem readFrame_nil {direction : Direction} {reader : FrameReader} (h : reader.inner = []) :
    reader.readFrame direction = .error (.Io .UnexpectedEof) := by
  rw [readFrame, h]
  rfl

/-- Behind the next frame of a stream, the next number is expected. -/
private theorem readAll_frame {direction : Direction} {reader : FrameReader} {frame : Frame}
    {rest frames : List Frame} (hinner : reader.inner = (frame :: rest).flatMap Frame.bytes)
    (hnumbered : Numbered direction reader.session reader.nextSequence.toNat (frame :: frames))
    (hmax : frame.payload.length ≤ reader.maxPayload) :
    ∃ next : FrameReader, reader.readAll direction =
        ((frame.kind, frame.payload) :: (next.readAll direction).1, (next.readAll direction).2) ∧
      next.inner = rest.flatMap Frame.bytes ∧ next.session = reader.session ∧
      next.nextSequence.toNat = reader.nextSequence.toNat + 1 ∧
      next.maxPayload = reader.maxPayload := by
  obtain ⟨⟨hallows, hlimit, hsession, hsequence, hnext⟩, -⟩ := hnumbered
  rw [List.flatMap_cons] at hinner
  rw [← hsequence] at hnext
  have hread := readFrame_frame hinner hallows (Nat.le_min.mpr ⟨hmax, hlimit⟩) hsession
    (UInt64.toNat_inj.mp hsequence) hnext
  refine ⟨_, readAll_of_ok hread, rfl, rfl, ?_, rfl⟩
  rw [← hsequence]
  exact UInt64.toNat_ofNat_of_lt' hnext

/-- Frames in order are read in order, up to the end of the stream. -/
theorem readAll_numbered {direction : Direction} {frames : List Frame} {reader : FrameReader}
    (hinner : reader.inner = frames.flatMap Frame.bytes)
    (hnumbered : Numbered direction reader.session reader.nextSequence.toNat frames)
    (hmax : ∀ frame ∈ frames, frame.payload.length ≤ reader.maxPayload) :
    reader.readAll direction =
      (frames.map fun frame => (frame.kind, frame.payload), .Io .UnexpectedEof) := by
  induction frames generalizing reader with
  | nil => exact readAll_of_error (readFrame_nil hinner)
  | cons frame frames ih =>
    obtain ⟨next, hread, hrest, hsession, hnext, hsame⟩ :=
      readAll_frame hinner hnumbered (hmax frame List.mem_cons_self)
    have hafter := ih hrest (by rw [hsession, hnext]; exact hnumbered.2)
      (fun other hother => hsame ▸ hmax other (List.mem_cons_of_mem _ hother))
    rw [hread, hafter]
    rfl

/-- An edited stream is read up to the first position where it differs from what was sent. -/
theorem readAll_edited {direction : Direction} {sent edited : List Frame} {reader : FrameReader}
    (hinner : reader.inner = edited.flatMap Frame.bytes)
    (hnumbered : Numbered direction reader.session reader.nextSequence.toNat sent)
    (hmax : ∀ frame ∈ sent, frame.payload.length ≤ reader.maxPayload)
    (hedited : ∀ index frame, edited[index]? = some frame → direction.allows frame.kind = true →
      frame.session = reader.session.get →
      frame.sequence.toNat = reader.nextSequence.toNat + index → sent[index]? = some frame) :
    ∃ error, reader.readAll direction =
      ((commonPrefix sent edited).map fun frame => (frame.kind, frame.payload), error) := by
  induction edited generalizing sent reader with
  | nil =>
    have hempty : commonPrefix sent [] = [] := by cases sent <;> rfl
    rw [hempty]
    exact ⟨_, readAll_of_error (readFrame_nil hinner)⟩
  | cons frame edited ih =>
    by_cases hsame : sent[0]? = some frame
    · obtain ⟨rest, rfl⟩ : ∃ rest, sent = frame :: rest := by
        cases sent with
        | nil => cases hsame
        | cons head rest =>
          cases hsame
          exact ⟨rest, rfl⟩
      obtain ⟨next, hread, hrest, hsession, hnext, hmaxSame⟩ :=
        readAll_frame hinner hnumbered (hmax frame List.mem_cons_self)
      have hnumberedRest : Numbered direction next.session next.nextSequence.toNat rest := by
        rw [hsession, hnext]
        exact hnumbered.2
      obtain ⟨error, hafter⟩ := ih hrest hnumberedRest
        (fun other hother => hmaxSame ▸ hmax other (List.mem_cons_of_mem _ hother))
        (fun index other hat hallows hother hsequence =>
          hedited (index + 1) other hat hallows (hsession ▸ hother) (by omega))
      refine ⟨error, ?_⟩
      rw [hread, hafter, commonPrefix, if_pos rfl]
      rfl
    · -- the first frame is not the one that was sent here, so it is not taken
      have hempty : commonPrefix sent (frame :: edited) = [] := by
        cases sent with
        | nil => rfl
        | cons head rest =>
          have hdiffers : head ≠ frame := fun hequal => hsame (congrArg some hequal)
          rw [commonPrefix, if_neg hdiffers]
      rw [hempty]
      cases hread : reader.readFrame direction with
      | error error => exact ⟨error, readAll_of_error hread⟩
      | ok result =>
        rw [List.flatMap_cons] at hinner
        obtain ⟨hallows, hsession, hsequence⟩ := accepted_of_readFrame hinner hread
        exact absurd (hedited 0 frame rfl hallows hsession (congrArg UInt64.toNat hsequence)) hsame

end FrameReader

/-! ## The protocol's two streams -/

/-- The reader takes exactly the sender's stream: all that was sent, in order; after a failed
send the same number is used again; and of an edited stream what comes before the change. -/
structure TakesExactly {Message : Type} (direction : Direction)
    (encode : Message → ProtocolResult (UInt16 × List UInt8)) : Prop where
  stream : ∀ (session : RendererSessionId) (messages : List Message),
    (FrameReader.new ((FrameWriter.new session).sendAll encode messages).inner session).readAll
        direction =
      (((FrameWriter.new session).sent encode messages).map fun frame =>
        (frame.kind, frame.payload), .Io .UnexpectedEof)
  failed_send : ∀ (writer after : FrameWriter) (message : Message) (error : ProtocolError),
    writer.send encode message = (.error error, after) → after = writer
  edited : ∀ (session : RendererSessionId) (messages : List Message) (edited : List Frame),
    Edited direction session ((FrameWriter.new session).sent encode messages) edited →
    ∃ error, (FrameReader.new (edited.flatMap Frame.bytes) session).readAll direction =
      ((commonPrefix ((FrameWriter.new session).sent encode messages) edited).map fun frame =>
        (frame.kind, frame.payload), error)

theorem takesExactly {Message : Type} {direction : Direction}
    {encode : Message → ProtocolResult (UInt16 × List UInt8)}
    (hkinds : ∀ message kind payload, encode message = .ok (kind, payload) →
      direction.allows kind = true) : TakesExactly direction encode := by
  have hsent : ∀ (session : RendererSessionId) (messages : List Message),
      ((FrameWriter.new session).sendAll encode messages).inner =
          ((FrameWriter.new session).sent encode messages).flatMap Frame.bytes ∧
        Numbered direction session 1 ((FrameWriter.new session).sent encode messages) :=
    fun session messages => FrameWriter.sendAll_frames hkinds (FrameWriter.new session) messages
  have hmax : ∀ {session : RendererSessionId} {next : Nat} {frames : List Frame},
      Numbered direction session next frames →
      ∀ frame ∈ frames, frame.payload.length ≤ defaultMaxPayload := by
    intro session next frames hnumbered frame hmem
    induction frames generalizing next with
    | nil => cases hmem
    | cons head frames ih =>
      cases hmem with
      | head => exact hnumbered.1.2.1.trans (payloadLimit_le _)
      | tail _ hmem => exact ih hnumbered.2 hmem
  refine ⟨?_, ?_, ?_⟩
  · intro session messages
    obtain ⟨hinner, hnumbered⟩ := hsent session messages
    exact FrameReader.readAll_numbered hinner hnumbered (hmax hnumbered)
  · exact fun writer after message error => FrameWriter.failed_send
  · intro session messages edited hedited
    obtain ⟨-, hnumbered⟩ := hsent session messages
    refine FrameReader.readAll_edited rfl hnumbered (hmax hnumbered) ?_
    intro index frame hat hallows hsession hsequence
    have hposition : frame.sequence.toNat = index + 1 := hsequence.trans (Nat.add_comm 1 index)
    rcases hedited index frame hat with hmem | hother | hother | hother
    · obtain ⟨place, hplace⟩ := List.getElem?_of_mem hmem
      have hnumber := hnumbered.sequence_at hplace
      have hsame : place = index := by omega
      exact hsame ▸ hplace
    · have hopposite := allows_opposite hallows
      rw [(allows_iff_produces _ _).mpr hother] at hopposite
      cases hopposite
    · exact absurd hsession hother
    · exact absurd hposition hother

/-- Framing takes exactly the sender's stream in both directions, and the tables of kinds agree:
a direction allows the kinds that its encoder produces, and none of the other's. -/
theorem framing_exact {Content : Type} (codec : PayloadCodec Content) :
    TakesExactly .Browser codec.encodeBrowser ∧ TakesExactly .Renderer codec.encodeRenderer ∧
    (∀ message kind payload, codec.encodeBrowser message = .ok (kind, payload) →
      Direction.Browser.allows kind = true ∧ Direction.Renderer.allows kind = false) ∧
    (∀ message kind payload, codec.encodeRenderer message = .ok (kind, payload) →
      Direction.Renderer.allows kind = true ∧ Direction.Browser.allows kind = false) ∧
    ∀ (direction : Direction) (kind : UInt16),
      direction.allows kind = true ↔ direction.Produces kind := by
  have hbrowser : ∀ message kind payload, codec.encodeBrowser message = .ok (kind, payload) →
      Direction.Browser.allows kind = true := by
    intro message kind payload h
    obtain ⟨bytes, -, h⟩ := bind_eq_ok.mp h
    cases h
    exact (allows_iff_produces .Browser _).mpr ⟨message.variant, rfl⟩
  have hrenderer : ∀ message kind payload, codec.encodeRenderer message = .ok (kind, payload) →
      Direction.Renderer.allows kind = true := by
    intro message kind payload h
    obtain ⟨bytes, -, h⟩ := bind_eq_ok.mp h
    cases h
    exact (allows_iff_produces .Renderer _).mpr ⟨message.variant, rfl⟩
  refine ⟨takesExactly hbrowser, takesExactly hrenderer, ?_, ?_, allows_iff_produces⟩
  · intro message kind payload h
    exact ⟨hbrowser message kind payload h, allows_opposite (hbrowser message kind payload h)⟩
  · intro message kind payload h
    exact ⟨hrenderer message kind payload h, allows_opposite (hrenderer message kind payload h)⟩

/-- Payloads that are sent as they are, as long as they are short. -/
private def shortCodec : PayloadCodec (List UInt8) where
  encodeBrowserPayload _ bytes :=
    if bytes.length ≤ 8 then .ok bytes else .error (.InvalidPayload "message length")
  encodeRendererPayload _ bytes :=
    if bytes.length ≤ 8 then .ok bytes else .error (.InvalidPayload "message length")

private def shortSession : RendererSessionId := ⟨71, by decide⟩

private def shortRun : List (BrowserMessage (List UInt8)) :=
  [⟨.Ping, [1, 0, 0, 0, 0, 0, 0, 0]⟩, ⟨.DocumentChunk, [1, 2, 3, 4, 5, 6, 7, 8, 9]⟩, ⟨.Shutdown, []⟩]

/-- The message in the middle fails; swapping the frames of the others leaves nothing to read. -/
theorem framing_exact_sample :
    (FrameReader.new ((FrameWriter.new shortSession).sendAll shortCodec.encodeBrowser shortRun).inner
        shortSession).readAll .Browser =
      ([(3, [1, 0, 0, 0, 0, 0, 0, 0]), (5, [])], .Io .UnexpectedEof) ∧
    ∃ error, (FrameReader.new (([⟨5, [], 71, 2⟩, ⟨3, [1, 0, 0, 0, 0, 0, 0, 0], 71, 1⟩] :
        List Frame).flatMap Frame.bytes) shortSession).readAll .Browser = ([], error) := by
  have hexact := (framing_exact shortCodec).1
  refine ⟨hexact.stream shortSession shortRun, ?_⟩
  refine hexact.edited shortSession shortRun _ ?_
  intro index frame hat
  refine .inl ?_
  match index, hat with
  | 0, hat =>
    cases hat
    decide
  | 1, hat =>
    cases hat
    decide

end BetterWebBrowser.RendererProtocol
