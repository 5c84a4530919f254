/-
  FuzzyPath — answering requests from a stream.

  Every frame of the stream is a request of its own; its response goes out as a
  frame before the next request is read.  Nothing a request says can end the
  stream: only reading and writing can fail.

  * `responseFrame` is the frame that answers a request;
  * `serve` gives all frames that are written and how the stream ended.
-/
import FuzzyPath.Server.Frame
import FuzzyPath.Service.Matching

namespace FuzzyPath

/-- The payload that carries a response. -/
def Response.payload (r : Response) : ByteArray := (Response.form.codec.encode r).toUTF8

/-- The frame that answers a request. -/
def responseFrame (hardware : Nat) (request : ByteArray) : Except StreamError (List UInt8) :=
  writeFrame (answer hardware request.data.toList).payload

/-- What answering a stream comes to. -/
structure Served where
  /-- The frames written, in order. -/
  frames : List (List UInt8)
  /-- Why it ended early, if it did. -/
  failure : Option StreamError
  deriving DecidableEq, Repr

/-- The number of requests that were answered. -/
def Served.count (s : Served) : Nat := s.frames.length

/-- Answers the requests of a stream until its end or the first failure; `done`
    are the frames written before, last first. -/
def serveFrom (hardware : Nat) (done : List (List UInt8)) (events : List ReadEvent) : Served :=
  match h : readFrame events with
  | (.done, _) => ⟨done.reverse, none⟩
  | (.failed err, _) => ⟨done.reverse, some err⟩
  | (.frame request, rest) =>
    match responseFrame hardware request with
    | .error err => ⟨done.reverse, some err⟩
    | .ok frame =>
      have := streamSize_readFrame h
      serveFrom hardware (frame :: done) rest
termination_by streamSize events

/-- Answers the requests of a stream. -/
def serve (hardware : Nat) (events : List ReadEvent) : Served := serveFrom hardware [] events

end FuzzyPath
