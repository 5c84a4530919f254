/-
  FuzzyPath — a session depends on the bytes of its stream only.

  * `framesIn` cuts bytes into frames: the payloads, and why what follows them
    is no frame, if it is not the end;
  * `Delivers.readFrames_eq`: however bytes are cut into reads, the frames in
    them are read;
  * `serve_of_delivers`: the leading requests whose responses fit are answered,
    each by a frame of its own, and the first failure is the outcome.
-/
import FuzzyPath.Proofs.Server.Serving

namespace FuzzyPath

/-! ## Frames in bytes -/

/-- The length that the header of a frame says. -/
def announced (bytes : List UInt8) : Nat := lengthOf (bytes.take 4)

/-- The payload of the frame at the front of some bytes. -/
def payloadIn (bytes : List UInt8) : ByteArray :=
  ⟨((bytes.drop 4).take (announced bytes)).toArray⟩

/-- The frames at the front of some bytes, and why there is not another one, if
    the bytes do not end after them. -/
def framesIn (bytes : List UInt8) : List ByteArray × Option StreamError :=
  if bytes = [] then ([], none)
  else if bytes.length < 4 then ([], some .endOfHeader)
  else if maxFrameLength < announced bytes then ([], some .payloadTooLarge)
  else if bytes.length < 4 + announced bytes then ([], some .endOfPayload)
  else
    (payloadIn bytes :: (framesIn (bytes.drop (4 + announced bytes))).1,
      (framesIn (bytes.drop (4 + announced bytes))).2)
termination_by bytes.length
decreasing_by all_goals simp only [List.length_drop]; omega

namespace Delivers
variable {events : List ReadEvent} {bytes : List UInt8}

/-- Some bytes, but too few for a header. -/
theorem readFrame_short (h : Delivers events bytes) (hne : bytes ≠ [])
    (hshort : bytes.length < 4) : readFrame events = (.failed .endOfHeader, []) := by
  obtain ⟨b, bytes, rfl⟩ := List.exists_cons_of_ne_nil hne
  rw [readFrame, h.fill_ended [] 4 hshort]
  rfl

/-- A header that announces too long a payload. -/
theorem readFrame_large (h : Delivers events bytes) (hheader : 4 ≤ bytes.length)
    (hlarge : maxFrameLength < announced bytes) :
    ∃ rest, readFrame events = (.failed .payloadTooLarge, rest) := by
  obtain ⟨rest, hfill, -⟩ := h.fill_complete [] 4 hheader
  refine ⟨rest, ?_⟩
  rw [readFrame, hfill]
  exact if_pos hlarge

/-- Fewer bytes than the header announces. -/
theorem readFrame_broken (h : Delivers events bytes) (hheader : 4 ≤ bytes.length)
    (hsize : announced bytes ≤ maxFrameLength) (hbroken : bytes.length < 4 + announced bytes) :
    readFrame events = (.failed .endOfPayload, []) := by
  obtain ⟨rest, hfill, hrest⟩ := h.fill_complete [] 4 hheader
  have hended := hrest.fill_ended [] (announced bytes) (by rw [List.length_drop]; omega)
  rw [announced] at hsize hended
  rw [readFrame, hfill]
  simp [Nat.not_lt.2 hsize, hended]

/-- A header, and all the bytes that it announces. -/
theorem readFrame_whole (h : Delivers events bytes) (hheader : 4 ≤ bytes.length)
    (hsize : announced bytes ≤ maxFrameLength) (hwhole : 4 + announced bytes ≤ bytes.length) :
    ∃ rest, readFrame events = (.frame (payloadIn bytes), rest) ∧
      Delivers rest (bytes.drop (4 + announced bytes)) := by
  obtain ⟨events', hfill, h'⟩ := h.fill_complete [] 4 hheader
  obtain ⟨rest, hpayload, hrest⟩ :=
    h'.fill_complete [] (announced bytes) (by rw [List.length_drop]; omega)
  rw [List.drop_drop] at hrest
  refine ⟨rest, ?_, hrest⟩
  rw [announced] at hsize hpayload
  rw [readFrame, hfill]
  simp [Nat.not_lt.2 hsize, hpayload, payloadIn, announced]

/-- The frames that are read are those in the bytes. -/
theorem readFrames_eq (h : Delivers events bytes) : readFrames events = framesIn bytes := by
  induction bytes using framesIn.induct generalizing events with
  | case1 =>
    rw [framesIn, if_pos rfl]
    exact readFrames_of_done h.readFrame_done
  | case2 bytes hne hshort =>
    rw [framesIn, if_neg hne, if_pos hshort]
    exact readFrames_of_failed (h.readFrame_short hne hshort)
  | case3 bytes hne hheader hlarge =>
    rw [framesIn, if_neg hne, if_neg hheader, if_pos hlarge]
    obtain ⟨rest, hread⟩ := h.readFrame_large (Nat.le_of_not_lt hheader) hlarge
    exact readFrames_of_failed hread
  | case4 bytes hne hheader hsize hbroken =>
    rw [framesIn, if_neg hne, if_neg hheader, if_neg hsize, if_pos hbroken]
    exact readFrames_of_failed (h.readFrame_broken (Nat.le_of_not_lt hheader)
      (Nat.le_of_not_lt hsize) hbroken)
  | case5 bytes hne hheader hsize hwhole ih =>
    rw [framesIn, if_neg hne, if_neg hheader, if_neg hsize, if_neg hwhole]
    obtain ⟨rest, hread, hrest⟩ := h.readFrame_whole (Nat.le_of_not_lt hheader)
      (Nat.le_of_not_lt hsize) (Nat.le_of_not_lt hwhole)
    rw [readFrames_of_frame hread, ih hrest]

end Delivers

/-! ## Sessions -/

/-- What a session comes to, by the number of leading requests whose responses
    fit. -/
theorem exists_serve_eq (hardware : Nat) (events : List ReadEvent) {requests : List ByteArray}
    {ending : Option StreamError} (hread : readFrames events = (requests, ending)) :
    ∃ k ≤ requests.length,
      (∀ request ∈ requests.take k, Answerable hardware request) ∧
      (∀ request ∈ requests[k]?, ¬ Answerable hardware request) ∧
      serve hardware events =
        ⟨(requests.take k).map fun request => frameBytes (responseTo hardware request),
          if k = requests.length then ending else some .payloadTooLarge⟩ := by
  let fits (request : ByteArray) : Bool := decide (Answerable hardware request)
  let k := requests.findIdx fun request => !fits request
  have htake : requests.takeWhile fits = requests.take k := List.takeWhile_eq_take_findIdx_not
  have hall : (∀ request ∈ requests, Answerable hardware request) ↔ k = requests.length := by
    rw [List.findIdx_eq_length]
    simp [fits]
  refine ⟨k, List.findIdx_le_length, ?_, ?_, ?_⟩
  · intro request hrequest
    rw [← htake] at hrequest
    simpa [fits] using List.mem_takeWhile_imp hrequest
  · intro request hrequest
    obtain ⟨hlt, rfl⟩ := List.getElem?_eq_some_iff.1 hrequest
    simpa [fits] using @List.findIdx_getElem _ (fun request => !fits request) requests hlt
  · rw [serve_eq, hread]
    simp only [htake, hall, fits]

/-- The bytes of a stream, in whatever reads they come, decide what a session
    writes: a frame for each of the leading requests whose responses fit, made
    from that request alone.  The session ends well if all responses fit and the
    stream ends after a frame; otherwise the first response that does not fit is
    the failure, or else the read that fails. -/
theorem serve_of_delivers {events : List ReadEvent} {bytes : List UInt8}
    (h : Delivers events bytes) (hardware : Nat) :
    readFrames events = framesIn bytes ∧
    ∀ requests ending, framesIn bytes = (requests, ending) → ∃ k ≤ requests.length,
      (∀ request ∈ requests.take k, Answerable hardware request) ∧
      (∀ request ∈ requests[k]?, ¬ Answerable hardware request) ∧
      (serve hardware events).frames.flatten =
        (requests.take k).flatMap (fun request => frameBytes (responseTo hardware request)) ∧
      ((serve hardware events).failure = none ∧ (serve hardware events).count = requests.length ↔
        k = requests.length ∧ ending = none) ∧
      (k < requests.length →
        ∃ err, (serve hardware events).failure = some err ∧ err.kind = .invalidData) ∧
      (k = requests.length → (serve hardware events).failure = ending) := by
  refine ⟨h.readFrames_eq, ?_⟩
  intro requests ending hframes
  obtain ⟨k, hk, hfits, hnext, hserve⟩ :=
    exists_serve_eq hardware events (h.readFrames_eq.trans hframes)
  refine ⟨k, hk, hfits, hnext, ?_, ?_, ?_, ?_⟩
  · rw [hserve, List.flatMap_def]
  · rw [hserve, Served.count, List.length_map, List.length_take, Nat.min_eq_left hk]
    by_cases hall : k = requests.length
    · simp [hall]
    · simp [hall]
  · intro hlt
    rw [hserve]
    exact ⟨.payloadTooLarge, if_neg (Nat.ne_of_lt hlt), rfl⟩
  · intro hall
    rw [hserve]
    exact if_pos hall

/-- A request that is no JSON, and after it a part of a header. -/
theorem serve_of_delivers_broken :
    Delivers [.bytes [1, 0], .interrupted, .bytes [0, 0, 0x78, 9]] [1, 0, 0, 0, 0x78, 9] ∧
    (serve 8 [.bytes [1, 0], .interrupted, .bytes [0, 0, 0x78, 9]]).frames.flatten =
      frameBytes (responseTo 8 ⟨#[0x78]⟩) ∧
    (serve 8 [.bytes [1, 0], .interrupted, .bytes [0, 0, 0x78, 9]]).failure =
      some .endOfHeader := by
  have hdelivers : Delivers [.bytes [1, 0], .interrupted, .bytes [0, 0, 0x78, 9]]
      ([1, 0] ++ ([0, 0, 0x78, 9] ++ [])) :=
    .bytes (by decide) (.interrupted (.bytes (by decide) .nil))
  have hframes : framesIn [1, 0, 0, 0, 0x78, 9] = ([⟨#[0x78]⟩], some .endOfHeader) := by
    have hsize : announced [1, 0, 0, 0, 0x78, 9] = 1 := by decide
    have hlast : framesIn [9] = ([], some .endOfHeader) := by simp [framesIn]
    rw [framesIn]
    simp [hsize, hlast, payloadIn, maxFrameLength]
  have hfits : Answerable 8 ⟨#[0x78]⟩ := by decide +kernel
  obtain ⟨-, hsession⟩ := serve_of_delivers hdelivers 8
  obtain ⟨k, hk, -, hnext, hwritten, -, -, hend⟩ := hsession _ _ hframes
  obtain rfl : k = 1 := by
    by_contra hne
    obtain rfl : k = 0 := by
      rw [List.length_singleton] at hk
      omega
    exact hnext ⟨#[0x78]⟩ rfl hfits
  exact ⟨hdelivers, by simpa using hwritten, hend rfl⟩

end FuzzyPath
