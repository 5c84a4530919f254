/-
  FuzzyPath — requests and responses survive the wire.

  A record is printed with all its fields and read back field by field, so
  nothing is lost of it: no character of a text and no bit of a number.

  * `Weights.form_readsBack`, `Options.form_readsBack`, `Request.form_readsBack`
    and `Response.form_readsBack`: each record is read back;
  * `wire_roundTrip`: a request that is printed is decoded again, if its version
    is understood, and the payload of a response is the response again.
-/
import FuzzyPath.Proofs.Json.Codecs
import FuzzyPath.Proofs.Server.Framing
import FuzzyPath.Server.Serve

namespace FuzzyPath

open Codec

/-! ## Records -/

theorem MatchMode.codec_readsBack : MatchMode.codec.ReadsBack := named_readsBack ofName?_name

theorem HighlightMode.codec_readsBack : HighlightMode.codec.ReadsBack :=
  named_readsBack ofName?_name

theorem Weights.form_readsBack : Weights.form.codec.ReadsBack := by
  have hfields : List.Forall₂ Field.Keeps Weights.form.fields _ :=
    .cons int32_readsBack.optional <| .cons int32_readsBack.optional <|
    .cons int32_readsBack.optional <| .cons int32_readsBack.optional <|
    .cons int32_readsBack.optional <| .cons int32_readsBack.optional <|
    .cons int32_readsBack.optional <| .cons int32_readsBack.optional <|
    .cons int32_readsBack.optional <| .cons int32_readsBack.optional <|
    .cons int64_readsBack.optional <| .cons int64_readsBack.optional <|
    .cons int64_readsBack.optional <| .cons count_readsBack.optional <|
    .cons int64_readsBack.optional .nil
  exact RecordForm.readsBack hfields (by decide) fun _ => rfl

theorem Options.form_readsBack : Options.form.codec.ReadsBack := by
  have hfields : List.Forall₂ Field.Keeps Options.form.fields _ :=
    .cons count_readsBack.optional <|
    .cons MatchMode.codec_readsBack.optional <|
    .cons boolean_readsBack.optional <| .cons string_readsBack.optional <|
    .cons HighlightMode.codec_readsBack.optional <|
    .cons boolean_readsBack.optional <| .cons count_readsBack.optional <|
    .cons string_readsBack.optional <| .cons string_readsBack.optional <|
    .cons boolean_readsBack.optional <| .cons boolean_readsBack.optional <|
    .cons count_readsBack.optional <|
    .cons Weights.form_readsBack.optional .nil
  exact RecordForm.readsBack hfields (by decide) fun _ => rfl

theorem Request.form_readsBack : Request.form.codec.ReadsBack := by
  have hfields : List.Forall₂ Field.Keeps Request.form.fields _ :=
    .cons uint32_readsBack.optional <|
    .cons string_readsBack.list.mandatory <|
    .cons string_readsBack.optional <|
    .cons Options.form_readsBack.optional .nil
  exact RecordForm.readsBack hfields (by decide) fun _ => rfl

theorem Response.form_readsBack : Response.form.codec.ReadsBack := by
  have hfields : List.Forall₂ Field.Keeps Response.form.fields _ :=
    .cons string_readsBack.list.mandatory <|
    .cons string_readsBack.list.mandatory .nil
  exact RecordForm.readsBack hfields (by decide) fun _ => rfl

/-! ## Requests and responses -/

/-- A request is decoded again if its version is understood, and refused with its
    version if not; a response is decoded from the payload of its frame. -/
theorem wire_roundTrip :
    (∀ request : Request, decodeRequest (utf8 (Request.form.codec.encode request)) =
      if request.version = requestVersion then .ok request
      else .error (.unsupportedVersion request.version requestVersion)) ∧
    ∀ response : Response,
      Response.form.codec.decode response.payload.data.toList = .ok response ∧
      writeFrame response.payload =
        if response.payload.size ≤ maxFrameLength then
          .ok (lengthBytes response.payload.size ++ response.payload.data.toList)
        else .error .payloadTooLarge := by
  constructor
  · intro request
    rw [decodeRequest, Request.form_readsBack.decode_encode request]
  · intro response
    refine ⟨?_, writeFrame_eq response.payload⟩
    rw [Response.payload, toList_data_toUTF8]
    exact Response.form_readsBack.decode_encode response

end FuzzyPath
