/-
  FuzzyPath — the server answers frame by frame.

  * `responseTo` is the payload that answers a request, and `Answerable` says
    that it fits into a frame;
  * `serve_eq`: the requests that are read are answered up to the first one whose
    response does not fit;
  * `serve_of_whole`: whole frames are all answered, as long as the responses
    fit;
  * `serve_longRequest`: a request of the size allowed can have a response that
    does not fit.
-/
import FuzzyPath.Proofs.Server.Framing
import FuzzyPath.Proofs.Service.Replies
import FuzzyPath.Server.Serve
import Mathlib.Data.List.TakeWhile

namespace FuzzyPath

/-- The payload that answers a request. -/
def responseTo (hardware : Nat) (request : ByteArray) : ByteArray :=
  (answer hardware request.data.toList).payload

/-- The response to a request fits into a frame. -/
def Answerable (hardware : Nat) (request : ByteArray) : Prop :=
  (responseTo hardware request).size ≤ maxFrameLength

instance (hardware : Nat) : DecidablePred (Answerable hardware) := fun request =>
  inferInstanceAs (Decidable ((responseTo hardware request).size ≤ maxFrameLength))

theorem responseFrame_eq (hardware : Nat) (request : ByteArray) : responseFrame hardware request =
    if Answerable hardware request then .ok (frameBytes (responseTo hardware request))
    else .error .payloadTooLarge := writeFrame_eq _

theorem serveFrom_eq_match (hardware : Nat) (done : List (List UInt8)) (events : List ReadEvent) :
    serveFrom hardware done events =
      match readFrame events with
      | (.done, _) => ⟨done.reverse, none⟩
      | (.failed err, _) => ⟨done.reverse, some err⟩
      | (.frame request, rest) =>
        if Answerable hardware request then
          serveFrom hardware (frameBytes (responseTo hardware request) :: done) rest
        else ⟨done.reverse, some .payloadTooLarge⟩ := by
  rw [serveFrom]
  split
  · simp [*]
  · simp [*]
  · rename_i request rest hread
    by_cases h : Answerable hardware request
    · simp [hread, responseFrame_eq, h]
    · simp [hread, responseFrame_eq, h]

/-- The frames that answer some requests, up to the first one whose response does
    not fit, after the frames written before. -/
theorem serveFrom_eq (hardware : Nat) (done : List (List UInt8)) (events : List ReadEvent) :
    serveFrom hardware done events =
      ⟨done.reverse ++ ((readFrames events).1.takeWhile (Answerable hardware ·)).map
          fun request => frameBytes (responseTo hardware request),
        if ∀ request ∈ (readFrames events).1, Answerable hardware request then
          (readFrames events).2
        else some .payloadTooLarge⟩ := by
  induction events using readFrames.induct generalizing done with
  | case1 events rest hread =>
    rw [serveFrom_eq_match, hread, readFrames_of_done hread]
    simp
  | case2 events err rest hread =>
    rw [serveFrom_eq_match, hread, readFrames_of_failed hread]
    simp
  | case3 events request rest hread hsize ih =>
    rw [serveFrom_eq_match, hread, readFrames_of_frame hread]
    by_cases h : Answerable hardware request
    · simp [h, ih]
    · simp [h]

theorem serve_eq (hardware : Nat) (events : List ReadEvent) : serve hardware events =
    ⟨((readFrames events).1.takeWhile (Answerable hardware ·)).map
        fun request => frameBytes (responseTo hardware request),
      if ∀ request ∈ (readFrames events).1, Answerable hardware request then
        (readFrames events).2
      else some .payloadTooLarge⟩ := serveFrom_eq hardware [] events

/-- Whole frames are answered one by one, whatever is in them, if the responses
    fit into frames.  The first response that does not fit ends the stream. -/
theorem serve_of_whole {hardware : Nat} {requests : List ByteArray} {events : List ReadEvent}
    (hsize : ∀ request ∈ requests, request.size ≤ maxFrameLength)
    (h : Delivers events (requests.flatMap frameBytes)) :
    ((∀ request ∈ requests, Answerable hardware request) →
      (serve hardware events).frames =
          requests.map (fun request => frameBytes (responseTo hardware request)) ∧
        (serve hardware events).count = requests.length ∧
        (serve hardware events).failure = none) ∧
    ∀ before request after, requests = before ++ request :: after →
      (∀ request ∈ before, Answerable hardware request) → ¬ Answerable hardware request →
      (serve hardware events).frames =
          before.map (fun request => frameBytes (responseTo hardware request)) ∧
        (serve hardware events).failure = some .payloadTooLarge := by
  rw [serve_eq, readFrames_of_whole hsize h, Served.count]
  refine ⟨fun hall => ?_, ?_⟩
  · have htake : requests.takeWhile (Answerable hardware ·) = requests :=
      List.takeWhile_eq_self_iff.2 fun request hrequest => decide_eq_true (hall request hrequest)
    rw [htake, if_pos hall]
    exact ⟨rfl, List.length_map .., rfl⟩
  · rintro before request after rfl hbefore hrequest
    have htake : (before ++ request :: after).takeWhile (Answerable hardware ·) = before := by
      rw [List.takeWhile_append_of_pos fun request hrequest => decide_eq_true (hbefore request hrequest),
        List.takeWhile_cons_of_neg (by simpa using hrequest), List.append_nil]
    rw [htake, if_neg fun hall => hrequest (hall request (by simp))]
    exact ⟨rfl, rfl⟩

/-- Two requests that are no JSON, the second of them empty. -/
theorem serve_of_whole_malformed :
    (∀ request ∈ [⟨#[0x78]⟩, ⟨#[]⟩], ByteArray.size request ≤ maxFrameLength) ∧
    (∀ request ∈ [⟨#[0x78]⟩, ⟨#[]⟩], Answerable 8 request) ∧
    (serve 8 [.bytes [1, 0], .interrupted, .bytes [0, 0, 0x78, 0, 0, 0, 0]]).count = 2 := by
  have hsize : ∀ request ∈ [⟨#[0x78]⟩, ⟨#[]⟩], ByteArray.size request ≤ maxFrameLength := by decide
  have hfits : ∀ request ∈ [⟨#[0x78]⟩, ⟨#[]⟩], Answerable 8 request := by decide +kernel
  have hdelivers : Delivers [.bytes [1, 0], .interrupted, .bytes [0, 0, 0x78, 0, 0, 0, 0]]
      ([1, 0] ++ ([0, 0, 0x78, 0, 0, 0, 0] ++ [])) :=
    .bytes (by decide) (.interrupted (.bytes (by decide) .nil))
  obtain ⟨hanswered, -⟩ := serve_of_whole hsize hdelivers
  exact ⟨hsize, hfits, (hanswered hfits).2.1⟩

/-! ## A response that does not fit -/

/-- The response repeats the text before each line, which the request does not. -/
theorem not_answerable_leadRequest {n : Nat} {lead : String}
    (h : maxFrameLength < n * (lead.utf8ByteSize + 4)) (hardware : Nat) :
    ¬ Answerable hardware (leadRequest (List.replicate n "a") "a" lead).compact.toUTF8 := by
  have hpattern := Nat.mul_le_mul_left n (size_le_pattern lead)
  have hpayload := sum_le_payload
    ⟨List.replicate n "a", List.replicate n (highlightPattern .full "a" [0] lead)⟩
  dsimp only at hpayload
  rw [List.map_replicate, List.sum_replicate_nat] at hpayload
  rw [Answerable, responseTo, toList_data_toUTF8, answer, decodeRequest_leadRequest]
  dsimp only
  rw [respond_copies]
  omega

/-- A text of 102404 bytes. -/
def longLead : String := String.ofList (List.replicate 25601 '🔍')

theorem size_longLead : longLead.utf8ByteSize = 102404 := by
  have hc : '🔍'.utf8Size = 4 := by decide
  have hsize := length_utf8Chars_replicate 25601 '🔍'
  rw [length_utf8Chars, hc] at hsize
  exact hsize

/-- A request for 1024 lines, each of which is drawn after the text. -/
def longRequest : ByteArray := (leadRequest (List.replicate 1024 "a") "a" longLead).compact.toUTF8

theorem size_longRequest_le : longRequest.size ≤ maxFrameLength := by
  have hle := @size_leadRequest_le '🔍' (by decide) 1024 25601
  have hc : '🔍'.utf8Size = 4 := by decide
  rw [hc] at hle
  rw [longRequest, size_toUTF8, maxFrameLength]
  exact Nat.le_trans hle (by decide)

/-- The request is read and is no larger than allowed, but its response is: the
    stream ends, and the request stays unanswered. -/
theorem serve_longRequest :
    longRequest.size ≤ maxFrameLength ∧
    decodeRequest longRequest.data.toList =
      .ok ⟨requestVersion, List.replicate 1024 "a", "a", leadOptions longLead⟩ ∧
    Delivers [.bytes (frameBytes longRequest)] ([longRequest].flatMap frameBytes) ∧
    ∀ hardware, serve hardware [.bytes (frameBytes longRequest)] = ⟨[], some .payloadTooLarge⟩ := by
  have hlong : ∀ hardware, ¬ Answerable hardware longRequest :=
    not_answerable_leadRequest (by rw [size_longLead, maxFrameLength]; omega)
  have hdelivers : Delivers [.bytes (frameBytes longRequest)] ([longRequest].flatMap frameBytes) :=
    .bytes (List.cons_ne_nil _ _) .nil
  refine ⟨size_longRequest_le, ?_, hdelivers, fun hardware => ?_⟩
  · rw [longRequest, toList_data_toUTF8]
    exact decodeRequest_leadRequest _ _ _
  · rw [serve_eq, readFrames_of_whole (List.forall_mem_singleton.2 size_longRequest_le) hdelivers]
    simp [hlong hardware]

end FuzzyPath
