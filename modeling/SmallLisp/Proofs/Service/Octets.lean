import SmallLisp.Proofs.Service.Requests
import SmallLisp.Proofs.Text.Malformed

/-!
# `Proofs.Service.Octets` — requests as texts and as octets

A service does not see whether a line came as a text or as the octets of that text (`handle_encode`): what is
asked for is decided on the characters, and decoding gives them back. Octets of no text are refused with the
fault that marks them, and the service stays as it was (`handle_of_marks`).
-/

namespace SmallLisp.Service

open Text.Utf8 (encode encode_toList decode_encode Malformed decode_of_marks decode_eq_ok_iff
  decode_eq_error_iff exists_encode_or_marks isValidUTF8_iff)

variable {service : Service} {octets : List UInt8}

/-- **A text and its octets ask for the same.** -/
theorem handle_encode (service : Service) (s : String) :
    service.handle (.octets (encode s.toList)) = service.handle (.text s) := by
  simp only [handle, Line.request, Request.ofOctets, decode_encode]
  rfl

/-- Lines one after the other, as texts and as octets. -/
theorem handleAll_encode (service : Service) (texts : List String) :
    service.handleAll (texts.map fun s => .octets (encode s.toList)) =
      service.handleAll (texts.map fun s : String => .text s) := by
  induction texts generalizing service with
  | nil => rfl
  | cons s texts ih => simp only [List.map_cons, handleAll, handle_encode, ih]

/-- **Octets of no text are refused**, and nothing else happens. -/
theorem handle_of_marks {fault : Malformed} (h : fault.Marks octets) :
    service.handle (.octets octets) = ⟨.ok (.invalid fault.message), "", service⟩ := by
  simp only [handle, Line.request, Request.ofOctets, decode_of_marks h, answer]

/-- **Texts and octets are handled alike.** In every state of the service, the octets of a text are handled as
    the text is: with the same response or the same breakdown, the same lines printed and the same service
    after it, and so are the octets of texts one after the other. Octets that are not valid are marked by one
    fault; the response reports it, nothing is printed, and the service stays as it was. -/
theorem handle_octets (service : Service) :
    (∀ s : String, service.handle (.octets s.toUTF8.data.toList) = service.handle (.text s)) ∧
    (∀ texts : List String, service.handleAll (texts.map fun s => .octets s.toUTF8.data.toList) =
      service.handleAll (texts.map fun s : String => .text s)) ∧
    ∀ octets : List UInt8, ¬ octets.toByteArray.IsValidUTF8 →
      ∃ fault : Malformed, (∀ other : Malformed, other.Marks octets ↔ other = fault) ∧
        service.handle (.octets octets) =
          ⟨.ok (.failure ("Invalid request: " ++ fault.message)), "", service⟩ := by
  simp only [← encode_toList]
  refine ⟨handle_encode service, handleAll_encode service, ?_⟩
  intro octets hinvalid
  rcases exists_encode_or_marks octets with htext | ⟨fault, hmarks⟩
  · exact absurd (isValidUTF8_iff.2 htext) hinvalid
  · refine ⟨fault, fun other => ⟨?_, ?_⟩, handle_of_marks hmarks⟩
    · intro hother
      exact Except.error.inj ((decode_of_marks hother).symm.trans (decode_of_marks hmarks))
    · rintro rfl
      exact hmarks

/-- A quote, and a character of three octets without its last one. -/
theorem handle_octets_truncated :
    ¬ [0x22, 0xE2, 0x82].toByteArray.IsValidUTF8 ∧
      (fresh true false .texts).handle (.octets [0x22, 0xE2, 0x82]) =
        ⟨.ok (.failure ("Invalid request: 'utf-8' codec can't decode bytes in position 1-2: " ++
          "unexpected end of data")), "", fresh true false .texts⟩ := by
  have hmarks : Malformed.Marks ⟨1, 0xE2, 2, .unexpectedEnd⟩ [0x22, 0xE2, 0x82] :=
    decode_eq_error_iff.1 rfl
  have hinvalid : ¬ [0x22, 0xE2, 0x82].toByteArray.IsValidUTF8 := by
    intro hvalid
    obtain ⟨s, hs⟩ := isValidUTF8_iff.1 hvalid
    have hdecode := decode_eq_ok_iff.2 hs
    cases hdecode
  refine ⟨hinvalid, ?_⟩
  obtain ⟨fault, hunique, hhandle⟩ := (handle_octets (fresh true false .texts)).2.2 _ hinvalid
  obtain rfl := (hunique _).1 hmarks
  exact hhandle

end SmallLisp.Service
