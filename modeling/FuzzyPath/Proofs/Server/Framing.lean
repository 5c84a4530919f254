/-
  FuzzyPath — frames survive any delivery.

  * `Delivers` says that reads hand out some bytes, in pieces of any sizes and
    with interrupted reads in between;
  * `Delivers.fill_complete` and `Delivers.fill_ended`: how the bytes are cut
    into reads cannot be seen in what is collected;
  * `readFrames` reads frames up to the end of a stream or the first failure;
  * `readFrames_of_cut`: of frames that were written one after the other, and of
    which the stream brings only some bytes, the whole ones are read back.
-/
import FuzzyPath.Server.Frame
import Mathlib.Algebra.GroupWithZero.Nat
import Mathlib.Data.List.Basic

namespace FuzzyPath

/-! ## Collecting bytes -/

theorem fill_zero (done : List UInt8) (events : List ReadEvent) :
    fill done 0 events = (.complete done.reverse, events) := by
  cases events <;> simp [fill]

/-- A read gives what is needed, or all that it has. -/
theorem fill_bytes {done data : List UInt8} {need : Nat} {events : List ReadEvent}
    (hneed : need ≠ 0) (hdata : data ≠ []) :
    fill done need (.bytes data :: events) =
      if need < data.length then
        (.complete (done.reverse ++ data.take need), .bytes (data.drop need) :: events)
      else fill (data.reverse ++ done) (need - data.length) events := by
  obtain ⟨b, data, rfl⟩ := List.exists_cons_of_ne_nil hdata
  rw [fill, if_neg hneed, List.length_cons]
  dsimp only
  split
  · rw [List.reverseAux_eq, List.reverse_append, List.reverse_reverse]
  · rw [List.take_of_length_le (by rw [List.length_cons]; omega), List.reverseAux_eq]

/-! ## Delivery -/

/-- The reads hand out the bytes and no others, none of them is empty, and none
    fails for good. -/
inductive Delivers : List ReadEvent → List UInt8 → Prop where
  | nil : Delivers [] []
  | interrupted {events : List ReadEvent} {bytes : List UInt8} (h : Delivers events bytes) :
    Delivers (.interrupted :: events) bytes
  | bytes {events : List ReadEvent} {bytes data : List UInt8} (hdata : data ≠ [])
    (h : Delivers events bytes) : Delivers (.bytes data :: events) (data ++ bytes)

namespace Delivers
variable {events : List ReadEvent} {bytes : List UInt8}

/-- Bytes are collected from any reads that hand out enough of them. -/
theorem fill_complete (h : Delivers events bytes) : ∀ (done : List UInt8) (need : Nat),
    need ≤ bytes.length → ∃ rest,
      fill done need events = (.complete (done.reverse ++ bytes.take need), rest) ∧
      Delivers rest (bytes.drop need) := by
  induction h with
  | nil =>
    intro done need hneed
    obtain rfl : need = 0 := Nat.le_zero.1 hneed
    exact ⟨[], by rw [fill_zero, List.take_nil, List.append_nil], nil⟩
  | @interrupted events bytes h ih =>
    intro done need hneed
    rcases Nat.eq_zero_or_pos need with rfl | hpos
    · exact ⟨_, by rw [fill_zero, List.take_zero, List.append_nil], h.interrupted⟩
    · obtain ⟨rest, hfill, hrest⟩ := ih done need hneed
      exact ⟨rest, by rw [fill, if_neg (Nat.ne_of_gt hpos), hfill], hrest⟩
  | @bytes events bytes data hdata h ih =>
    intro done need hneed
    rcases Nat.eq_zero_or_pos need with rfl | hpos
    · exact ⟨_, by rw [fill_zero, List.take_zero, List.append_nil], h.bytes hdata⟩
    · rw [fill_bytes (Nat.ne_of_gt hpos) hdata]
      by_cases hlt : need < data.length
      · -- What the read gives beyond is still to be handed out.
        have hleft : data.drop need ≠ [] := by rw [Ne, List.drop_eq_nil_iff]; omega
        refine ⟨_, by rw [if_pos hlt, List.take_append_of_le_length (Nat.le_of_lt hlt)], ?_⟩
        rw [List.drop_append_of_le_length (Nat.le_of_lt hlt)]
        exact h.bytes hleft
      · rw [List.length_append] at hneed
        obtain ⟨rest, hfill, hrest⟩ := ih (data.reverse ++ done) (need - data.length) (by omega)
        have htake : (data ++ bytes).take need = data ++ bytes.take (need - data.length) := by
          rw [List.take_append, List.take_of_length_le (by omega)]
        have hdrop : (data ++ bytes).drop need = bytes.drop (need - data.length) := by
          rw [List.drop_append, List.drop_eq_nil_of_le (by omega), List.nil_append]
        refine ⟨rest, ?_, by rwa [hdrop]⟩
        rw [if_neg hlt, hfill, htake, List.reverse_append, List.reverse_reverse, List.append_assoc]

/-- If there are not enough bytes, all are collected before the end shows. -/
theorem fill_ended (h : Delivers events bytes) : ∀ (done : List UInt8) (need : Nat),
    bytes.length < need → fill done need events = (.ended (done.reverse ++ bytes), []) := by
  induction h with
  | nil =>
    intro done need hneed
    rw [List.length_nil] at hneed
    rw [fill, if_neg (Nat.ne_of_gt hneed), List.append_nil]
  | @interrupted events bytes h ih =>
    intro done need hneed
    rw [fill, if_neg (by omega)]
    exact ih done need hneed
  | @bytes events bytes data hdata h ih =>
    intro done need hneed
    rw [List.length_append] at hneed
    rw [fill_bytes (by omega) hdata, if_neg (by omega), ih _ _ (by omega), List.reverse_append,
      List.reverse_reverse, List.append_assoc]

end Delivers

/-! ## One frame -/

theorem length_frameBytes (payload : ByteArray) :
    (frameBytes payload).length = 4 + payload.size := by
  rw [frameBytes, List.length_append, Array.length_toList, ByteArray.size_data]
  rfl

/-- The length in front of a payload is read back. -/
theorem lengthOf_lengthBytes {n : Nat} (h : n ≤ maxFrameLength) : lengthOf (lengthBytes n) = n := by
  rw [maxFrameLength] at h
  simp [lengthOf, lengthBytes]
  omega

/-- The bytes of a frame are written, or nothing if the payload is too large. -/
theorem sendFrame_run (payload : ByteArray) (written : List UInt8) :
    (sendFrame payload).run.run written =
      if payload.size ≤ maxFrameLength then (.ok (), written ++ frameBytes payload)
      else (.error .payloadTooLarge, written) := by
  rw [sendFrame]
  by_cases hsize : payload.size ≤ maxFrameLength
  · rw [if_neg (by omega), if_pos hsize, frameBytes, ← List.append_assoc]
    rfl
  · rw [if_pos (by omega), if_neg hsize]
    rfl

theorem sendFrames_run : ∀ {payloads : List ByteArray} (_ : ∀ p ∈ payloads, p.size ≤ maxFrameLength)
    (written : List UInt8), (payloads.forM sendFrame).run.run written =
      (.ok (), written ++ payloads.flatMap frameBytes)
  | [], _, written => by rw [List.flatMap_nil, List.append_nil]; rfl
  | payload :: payloads, hsize, written => by
    obtain ⟨hp, hps⟩ := List.forall_mem_cons.1 hsize
    have hfirst := sendFrame_run payload written
    rw [if_pos hp] at hfirst
    have hrest := sendFrames_run hps (written ++ frameBytes payload)
    change (sendFrame payload >>= fun _ => payloads.forM sendFrame).run.run written = _
    rw [ExceptT.run_bind, StateT.run_bind, hfirst, List.flatMap_cons, ← List.append_assoc]
    exact hrest

theorem writeFrame_eq (payload : ByteArray) : writeFrame payload =
    if payload.size ≤ maxFrameLength then .ok (frameBytes payload)
    else .error .payloadTooLarge := by
  rw [writeFrame, sendFrame_run]
  by_cases hsize : payload.size ≤ maxFrameLength
  · rw [if_pos hsize, if_pos hsize]
    rfl
  · rw [if_neg hsize, if_neg hsize]
    rfl

namespace Delivers
variable {events : List ReadEvent} {bytes rest : List UInt8} {payload : ByteArray}

/-- What is left of a stream after the length of a payload. -/
theorem fill_header (h : Delivers events (lengthBytes payload.size ++ rest)) :
    ∃ events', fill [] 4 events = (.complete (lengthBytes payload.size), events') ∧
      Delivers events' rest :=
  h.fill_complete [] 4 (by rw [List.length_append]; exact Nat.le_add_right 4 _)

/-- A frame is read from any reads that hand out its bytes. -/
theorem readFrame_frame (hsize : payload.size ≤ maxFrameLength)
    (h : Delivers events (frameBytes payload ++ rest)) :
    ∃ events', readFrame events = (.frame payload, events') ∧ Delivers events' rest := by
  have hlength : payload.data.toList.length = payload.size := by
    rw [Array.length_toList, ByteArray.size_data]
  rw [frameBytes, List.append_assoc] at h
  obtain ⟨events₁, hheader, h₁⟩ := h.fill_header
  obtain ⟨events₂, hpayload, h₂⟩ := h₁.fill_complete [] payload.size
    (by rw [List.length_append]; omega)
  rw [List.take_left' hlength] at hpayload
  rw [List.drop_left' hlength] at h₂
  refine ⟨events₂, ?_, h₂⟩
  rw [readFrame, hheader]
  dsimp only
  rw [lengthOf_lengthBytes hsize, if_neg (by omega), hpayload]
  rfl

/-- Before a frame, the end is clean. -/
theorem readFrame_done (h : Delivers events []) : readFrame events = (.done, []) := by
  rw [readFrame, h.fill_ended [] 4 (by decide)]
  rfl

/-- A stream that ends within a frame ends unexpectedly. -/
theorem readFrame_cut (hsize : payload.size ≤ maxFrameLength) {cut : Nat} (hpos : 0 < cut)
    (hcut : cut < 4 + payload.size) (h : Delivers events ((frameBytes payload).take cut)) :
    ∃ err, err.kind = .unexpectedEnd ∧ readFrame events = (.failed err, []) := by
  have htake : ((frameBytes payload).take cut).length = cut := by
    rw [List.length_take, length_frameBytes]; omega
  by_cases hheader : cut < 4
  · refine ⟨.endOfHeader, rfl, ?_⟩
    obtain ⟨b, bytes, heq⟩ := List.exists_cons_of_length_pos (htake.symm ▸ hpos)
    rw [readFrame, h.fill_ended [] 4 (by omega), heq]
    rfl
  · refine ⟨.endOfPayload, rfl, ?_⟩
    have hlength : (lengthBytes payload.size).length = 4 := rfl
    have hsplit : (frameBytes payload).take cut =
        lengthBytes payload.size ++ payload.data.toList.take (cut - 4) := by
      rw [frameBytes, List.take_append, List.take_of_length_le (by omega), hlength]
    rw [hsplit] at h htake
    rw [List.length_append] at htake
    obtain ⟨events', hfill, h'⟩ := h.fill_header
    have hrest : (payload.data.toList.take (cut - 4)).length < payload.size := by omega
    rw [readFrame, hfill]
    dsimp only
    rw [lengthOf_lengthBytes hsize, if_neg (by omega), h'.fill_ended [] _ hrest]

end Delivers

/-! ## All frames of a stream -/

/-- Reads frames until there is none: their payloads, and why the last read
    failed, if it did. -/
def readFrames (events : List ReadEvent) : List ByteArray × Option StreamError :=
  match h : readFrame events with
  | (.done, _) => ([], none)
  | (.failed err, _) => ([], some err)
  | (.frame payload, rest) =>
    have := streamSize_readFrame h
    (payload :: (readFrames rest).1, (readFrames rest).2)
termination_by streamSize events

theorem readFrames_eq (events : List ReadEvent) : readFrames events =
    match readFrame events with
    | (.done, _) => ([], none)
    | (.failed err, _) => ([], some err)
    | (.frame payload, rest) => (payload :: (readFrames rest).1, (readFrames rest).2) := by
  rw [readFrames]
  split <;> simp [*]

section
variable {events rest : List ReadEvent}

theorem readFrames_of_done (h : readFrame events = (.done, rest)) :
    readFrames events = ([], none) := by
  rw [readFrames_eq, h]

theorem readFrames_of_failed {err : StreamError} (h : readFrame events = (.failed err, rest)) :
    readFrames events = ([], some err) := by
  rw [readFrames_eq, h]

theorem readFrames_of_frame {payload : ByteArray} (h : readFrame events = (.frame payload, rest)) :
    readFrames events = (payload :: (readFrames rest).1, (readFrames rest).2) := by
  rw [readFrames_eq, h]

end

/-- Frames that a stream brings whole are read back, and then the end. -/
theorem readFrames_of_whole : ∀ {payloads : List ByteArray} {events : List ReadEvent},
    (∀ p ∈ payloads, p.size ≤ maxFrameLength) → Delivers events (payloads.flatMap frameBytes) →
    readFrames events = (payloads, none)
  | [], _, _, h => readFrames_of_done h.readFrame_done
  | payload :: payloads, events, hsize, h => by
    obtain ⟨hp, hps⟩ := List.forall_mem_cons.1 hsize
    rw [List.flatMap_cons] at h
    obtain ⟨rest, hread, hrest⟩ := h.readFrame_frame hp
    rw [readFrames_of_frame hread, readFrames_of_whole hps hrest]

/-- The number of bytes that the first `k` frames take. -/
def frameEnd (payloads : List ByteArray) (k : Nat) : Nat :=
  ((payloads.take k).map (4 + ·.size)).sum

/-- Of the frames with some payloads, the first `k` and no more lie wholly within
    the first `cut` bytes. -/
structure WholeFrames (payloads : List ByteArray) (cut k : Nat) : Prop where
  le_length : k ≤ payloads.length
  le_cut : frameEnd payloads k ≤ cut
  greatest : ∀ j ≤ payloads.length, frameEnd payloads j ≤ cut → j ≤ k

/-- The place is the end of some frame, or the start of the first one. -/
def IsFrameBoundary (payloads : List ByteArray) (cut : Nat) : Prop :=
  ∃ j ≤ payloads.length, frameEnd payloads j = cut

@[simp] theorem frameEnd_zero (payloads : List ByteArray) : frameEnd payloads 0 = 0 := rfl

@[simp] theorem frameEnd_cons (payload : ByteArray) (payloads : List ByteArray) (k : Nat) :
    frameEnd (payload :: payloads) (k + 1) = 4 + payload.size + frameEnd payloads k := rfl

section
variable {payload : ByteArray} {payloads : List ByteArray} {cut k : Nat}

/-- Within the first frame there is no whole one, and its start is the only
    boundary. -/
theorem wholeFrames_zero (hcut : cut < 4 + payload.size) :
    WholeFrames (payload :: payloads) cut 0 ∧
      (IsFrameBoundary (payload :: payloads) cut ↔ cut = 0) := by
  refine ⟨⟨Nat.zero_le _, Nat.zero_le _, fun j _ hj => ?_⟩, ?_, ?_⟩
  · cases j with
    | zero => exact Nat.le_refl _
    | succ j => rw [frameEnd_cons] at hj; omega
  · rintro ⟨j, _, hj⟩
    cases j with
    | zero => exact hj.symm
    | succ j => rw [frameEnd_cons] at hj; omega
  · rintro rfl
    exact ⟨0, Nat.zero_le _, rfl⟩

/-- Behind the first frame, it is one more. -/
theorem WholeFrames.cons (h : WholeFrames payloads cut k) :
    WholeFrames (payload :: payloads) (4 + payload.size + cut) (k + 1) := by
  refine ⟨Nat.succ_le_succ h.le_length, ?_, fun j hj hle => ?_⟩
  · rw [frameEnd_cons]
    exact Nat.add_le_add_left h.le_cut _
  · cases j with
    | zero => exact Nat.zero_le _
    | succ j =>
      rw [frameEnd_cons] at hle
      exact Nat.succ_le_succ (h.greatest j (Nat.le_of_succ_le_succ hj) (by omega))

theorem isFrameBoundary_cons :
    IsFrameBoundary (payload :: payloads) (4 + payload.size + cut) ↔
      IsFrameBoundary payloads cut := by
  constructor
  · rintro ⟨j, hj, heq⟩
    cases j with
    | zero => rw [frameEnd_zero] at heq; omega
    | succ j => exact ⟨j, Nat.le_of_succ_le_succ hj, by rw [frameEnd_cons] at heq; omega⟩
  · rintro ⟨j, hj, heq⟩
    exact ⟨j + 1, Nat.succ_le_succ hj, by rw [frameEnd_cons, heq]⟩

end

/-- Of the bytes of some frames up to a place, the whole frames are read, and then
    the end: a clean one at the boundary of a frame, an unexpected one elsewhere. -/
theorem readFrames_of_delivers : ∀ {payloads : List ByteArray} {cut : Nat} {events : List ReadEvent},
    (∀ p ∈ payloads, p.size ≤ maxFrameLength) → cut ≤ (payloads.flatMap frameBytes).length →
    Delivers events ((payloads.flatMap frameBytes).take cut) →
    ∃ k, WholeFrames payloads cut k ∧
      (IsFrameBoundary payloads cut → readFrames events = (payloads.take k, none)) ∧
      (¬ IsFrameBoundary payloads cut →
        ∃ err, err.kind = .unexpectedEnd ∧ readFrames events = (payloads.take k, some err))
  | [], cut, events, _, hcut, h => by
    obtain rfl : cut = 0 := Nat.le_zero.1 hcut
    exact ⟨0, ⟨Nat.le_refl _, Nat.le_refl _, fun j hj _ => hj⟩,
      fun _ => readFrames_of_done h.readFrame_done, fun hne => absurd ⟨0, Nat.le_refl _, rfl⟩ hne⟩
  | payload :: payloads, cut, events, hsize, hcut, h => by
    obtain ⟨hp, hps⟩ := List.forall_mem_cons.1 hsize
    rw [List.flatMap_cons] at h hcut
    rw [List.length_append, length_frameBytes] at hcut
    by_cases hwhole : 4 + payload.size ≤ cut
    · obtain ⟨cut, rfl⟩ := Nat.exists_eq_add_of_le hwhole
      rw [List.take_append, List.take_of_length_le (by rw [length_frameBytes]; exact hwhole),
        length_frameBytes, Nat.add_sub_cancel_left] at h
      obtain ⟨events', hread, h'⟩ := h.readFrame_frame hp
      obtain ⟨k, hk, hclean, hbroken⟩ := readFrames_of_delivers hps (by omega) h'
      refine ⟨k + 1, hk.cons, fun hb => ?_, fun hb => ?_⟩
      · rw [readFrames_of_frame hread, hclean (isFrameBoundary_cons.1 hb), List.take_succ_cons]
      · obtain ⟨err, hkind, heq⟩ := hbroken (mt isFrameBoundary_cons.2 hb)
        exact ⟨err, hkind, by rw [readFrames_of_frame hread, heq, List.take_succ_cons]⟩
    · obtain ⟨hk, hboundary⟩ := @wholeFrames_zero payload payloads cut (Nat.lt_of_not_le hwhole)
      rw [List.take_append_of_le_length (by rw [length_frameBytes]; omega)] at h
      refine ⟨0, hk, fun hb => ?_, fun hb => ?_⟩
      · rw [hboundary.1 hb, List.take_zero] at h
        exact readFrames_of_done h.readFrame_done
      · rw [hboundary] at hb
        obtain ⟨err, hkind, hread⟩ := h.readFrame_cut hp (by omega) (by omega)
        exact ⟨err, hkind, readFrames_of_failed hread⟩

/-- Frames with payloads that are not too large can be written, and whatever part
    of their bytes a stream brings in whatever reads, its whole frames are read
    back; of a payload that is too large nothing is written. -/
theorem readFrames_of_cut {payloads : List ByteArray}
    (hsize : ∀ p ∈ payloads, p.size ≤ maxFrameLength) :
    ∃ bytes, (payloads.forM sendFrame).run.run [] = (.ok (), bytes) ∧
      (∀ cut ≤ bytes.length, ∀ events, Delivers events (bytes.take cut) →
        ∃ k, WholeFrames payloads cut k ∧
          (IsFrameBoundary payloads cut → readFrames events = (payloads.take k, none)) ∧
          (¬ IsFrameBoundary payloads cut →
            ∃ err, err.kind = .unexpectedEnd ∧ readFrames events = (payloads.take k, some err))) ∧
      ∀ (payload : ByteArray) (written : List UInt8), maxFrameLength < payload.size →
        ∃ err, err.kind = .invalidData ∧
          (sendFrame payload).run.run written = (.error err, written) := by
  refine ⟨_, sendFrames_run hsize [], fun cut hcut events h => readFrames_of_delivers hsize hcut h,
    fun payload written hlarge => ⟨.payloadTooLarge, rfl, ?_⟩⟩
  rw [sendFrame_run, if_neg (by omega)]

/-- Three frames, the second of which is empty and ends within its length. -/
theorem readFrames_of_cut_in_length :
    (∀ p ∈ [⟨#[123, 125]⟩, ⟨#[]⟩, ⟨#[97]⟩], ByteArray.size p ≤ maxFrameLength) ∧
    ∃ err, err.kind = .unexpectedEnd ∧
      readFrames [.bytes [2], .interrupted, .bytes [0, 0, 0, 123, 125, 0], .interrupted] =
        ([⟨#[123, 125]⟩], some err) := by
  have hsize : ∀ p ∈ [⟨#[123, 125]⟩, ⟨#[]⟩, ⟨#[97]⟩], ByteArray.size p ≤ maxFrameLength := by
    decide
  obtain ⟨bytes, hsent, hread, -⟩ := readFrames_of_cut hsize
  obtain rfl : [2, 0, 0, 0, 123, 125, 0, 0, 0, 0, 1, 0, 0, 0, 97] = bytes :=
    congrArg Prod.snd hsent
  have hdelivers : Delivers [.bytes [2], .interrupted, .bytes [0, 0, 0, 123, 125, 0], .interrupted]
      ([2] ++ ([0, 0, 0, 123, 125, 0] ++ [])) :=
    .bytes (by decide) (.interrupted (.bytes (by decide) (.interrupted .nil)))
  obtain ⟨k, hk, -, hbroken⟩ := hread 7 (by decide) _ hdelivers
  have hends : ∀ j ≤ 3, frameEnd [⟨#[123, 125]⟩, ⟨#[]⟩, ⟨#[97]⟩] j ≠ 7 := by decide
  obtain ⟨err, hkind, heq⟩ := hbroken fun ⟨j, hj, h⟩ => hends j hj h
  obtain rfl : k = 1 := by
    have hone : 1 ≤ k := hk.greatest 1 (by decide) (by decide)
    have htwo : ∀ j ≤ 3, frameEnd [⟨#[123, 125]⟩, ⟨#[]⟩, ⟨#[97]⟩] j ≤ 7 → j ≤ 1 := by decide
    have := htwo k hk.le_length hk.le_cut
    omega
  exact ⟨hsize, err, hkind, heq⟩

end FuzzyPath
