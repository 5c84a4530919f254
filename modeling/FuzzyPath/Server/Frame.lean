/-
  FuzzyPath — frames of a byte stream.

  A frame is a payload after its length, which is written in four bytes, the
  least significant first.  A stream hands out its bytes in reads of any size.

  * `sendFrame` writes a frame to a stream, and `writeFrame` gives its bytes;
    `readFrame` takes one from a stream;
  * a stream is a list of `ReadEvent`s; `fill` collects a number of bytes from
    it, whatever the sizes of the reads are;
  * `streamSize_readFrame`: whatever `readFrame` reads, the stream gets no
    longer, and shorter by each frame.
-/
namespace FuzzyPath

/-- The greatest length of a payload. -/
def maxFrameLength : Nat := 104857600

/-- Why a stream cannot be read or written. -/
inductive StreamError where
  /-- The stream ends within the length of a frame. -/
  | endOfHeader
  /-- The stream ends within a payload. -/
  | endOfPayload
  | payloadTooLarge
  /-- A read failed. -/
  | readFailed
  deriving DecidableEq, Repr

/-- The kinds of stream errors. -/
inductive StreamErrorKind where
  /-- The stream ends where more bytes are needed. -/
  | unexpectedEnd
  | invalidData
  | brokenPipe
  deriving DecidableEq, Repr

def StreamError.kind : StreamError → StreamErrorKind
  | endOfHeader | endOfPayload => .unexpectedEnd
  | payloadTooLarge => .invalidData
  | readFailed => .brokenPipe

def StreamError.message : StreamError → String
  | endOfHeader => "Truncated frame header"
  | endOfPayload => "failed to fill whole buffer"
  | payloadTooLarge => "Message too large"
  | readFailed => "reader failed"

/-! ## Writing -/

/-- A length in four bytes, the least significant first. -/
def lengthBytes (n : Nat) : List UInt8 :=
  [.ofNat n, .ofNat (n / 256), .ofNat (n / 65536), .ofNat (n / 16777216)]

/-- The bytes of a frame. -/
def frameBytes (payload : ByteArray) : List UInt8 :=
  lengthBytes payload.size ++ payload.data.toList

/-- A step that writes to a stream, or fails; the state is all that has been
    written. -/
abbrev StreamWriter := ExceptT StreamError (StateM (List UInt8))

/-- Writes some bytes. -/
def sendBytes (bytes : List UInt8) : StreamWriter Unit := modify (· ++ bytes)

/-- Writes a frame: the length of the payload and then the payload, if it is not
    too large. -/
def sendFrame (payload : ByteArray) : StreamWriter Unit := do
  if maxFrameLength < payload.size then throw .payloadTooLarge
  sendBytes (lengthBytes payload.size)
  sendBytes payload.data.toList

/-- The bytes of a frame, if the payload is not too large. -/
def writeFrame (payload : ByteArray) : Except StreamError (List UInt8) :=
  let (outcome, written) := (sendFrame payload).run.run []
  outcome.map fun () => written

/-! ## Reading -/

/-- What a read gives: bytes, none of them at the end of the stream, or a
    failure.  An interrupted read is tried again. -/
inductive ReadEvent where
  | bytes (data : List UInt8)
  | interrupted
  | failed
  deriving DecidableEq, Repr

/-- What comes of collecting bytes. -/
inductive Filled where
  | complete (bytes : List UInt8)
  /-- The stream ended after these bytes. -/
  | ended (bytes : List UInt8)
  | failed
  deriving DecidableEq, Repr

/-- Collects `need` more bytes; `done` are those collected before, last first.
    What a read gives beyond them stays in the stream, which ends where a read
    gives nothing. -/
def fill (done : List UInt8) (need : Nat) : List ReadEvent → Filled × List ReadEvent
  | [] => if need = 0 then (.complete done.reverse, []) else (.ended done.reverse, [])
  | event :: events =>
    if need = 0 then (.complete done.reverse, event :: events)
    else
      match event with
      | .interrupted => fill done need events
      | .failed => (.failed, events)
      | .bytes [] => (.ended done.reverse, events)
      | .bytes (b :: data) =>
        let used := ((b :: data).take need).reverseAux done
        if need < data.length + 1 then
          (.complete used.reverse, .bytes ((b :: data).drop need) :: events)
        else fill used (need - (data.length + 1)) events

/-- What comes of reading a frame. -/
inductive FrameRead where
  | frame (payload : ByteArray)
  /-- The stream ended before a frame. -/
  | done
  | failed (err : StreamError)

/-- The length that four bytes say. -/
def lengthOf (header : List UInt8) : Nat :=
  header.foldr (fun b n => b.toNat + 256 * n) 0

/-- Takes one frame from a stream. -/
def readFrame (events : List ReadEvent) : FrameRead × List ReadEvent :=
  match fill [] 4 events with
  | (.failed, events) => (.failed .readFailed, events)
  | (.ended [], events) => (.done, events)
  | (.ended _, events) => (.failed .endOfHeader, events)
  | (.complete header, events) =>
    if maxFrameLength < lengthOf header then (.failed .payloadTooLarge, events)
    else
      match fill [] (lengthOf header) events with
      | (.complete payload, events) => (.frame ⟨payload.toArray⟩, events)
      | (.ended _, events) => (.failed .endOfPayload, events)
      | (.failed, events) => (.failed .readFailed, events)

/-! ## The length of a stream -/

/-- The number of bytes and reads of an event. -/
def ReadEvent.size : ReadEvent → Nat
  | bytes data => data.length + 1
  | interrupted | failed => 1

/-- The number of bytes and reads of a stream. -/
def streamSize (events : List ReadEvent) : Nat :=
  events.foldr (fun event n => event.size + n) 0

@[simp] theorem streamSize_nil : streamSize [] = 0 := rfl

@[simp] theorem streamSize_cons (event : ReadEvent) (events : List ReadEvent) :
    streamSize (event :: events) = event.size + streamSize events := by
  simp [streamSize]

/-- Collecting bytes takes at least as many from the stream; the number is
    exact about what is left to be collected. -/
theorem streamSize_fill (done : List UInt8) (need : Nat) (events : List ReadEvent) :
    streamSize (fill done need events).2 ≤ streamSize events ∧
      ∀ bytes, (fill done need events).1 = .complete bytes →
        streamSize (fill done need events).2 + need ≤ streamSize events := by
  induction events generalizing done need with
  | nil => by_cases h : need = 0 <;> simp [fill, h]
  | cons event events ih =>
    by_cases h : need = 0
    · simp [fill, h]
    · cases event with
      | interrupted =>
        have := ih done need
        simp only [fill, h, if_false, streamSize_cons, ReadEvent.size]
        grind
      | failed => simp [fill, h, ReadEvent.size]
      | bytes data =>
        cases data with
        | nil => simp [fill, h, ReadEvent.size]
        | cons b data =>
          by_cases hlt : need < data.length + 1
          · simp [fill, h, hlt, ReadEvent.size]
            omega
          · have := ih (((b :: data).take need).reverseAux done) (need - (data.length + 1))
            simp only [fill, h, hlt, if_false, streamSize_cons, ReadEvent.size, List.length_cons]
            grind

/-- A frame takes at least its header from the stream. -/
theorem streamSize_readFrame {events rest : List ReadEvent} {payload : ByteArray}
    (h : readFrame events = (.frame payload, rest)) :
    streamSize rest < streamSize events := by
  have hheader := streamSize_fill [] 4 events
  rw [readFrame] at h
  split at h
  · simp at h
  · simp at h
  · simp at h
  · rename_i header events' hfill
    rw [hfill] at hheader
    have hpayload := streamSize_fill [] (lengthOf header) events'
    split at h
    · simp at h
    · split at h
      · simp_all
        omega
      · simp at h
      · simp at h

end FuzzyPath
