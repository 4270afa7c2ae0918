import ServingCatalog.Proofs.Json.Truncation
import ServingCatalog.Proofs.Model.SpecText

/-!
# Where the text of a spec ends

The text of a spec says itself where it ends.  A front of it, wherever it was cut, is found cut
short, and so it is never taken for another spec and never for one with a member left out.  What
follows the whole text changes nothing if it is blank, and is malformed otherwise.
-/

namespace ServingCatalog

open Json

theorem ScopeSpec.needsAll_readField (f : Field) (value : f.Value) :
    NeedsAll (readField f) (compactChars (encodeField f value)) := by
  cases f with
  | instanceTypes => exact needsAll_compact_texts value
  | default =>
    exact needsAll_compact_option needsAll_compact_string (fun _ => ⟨_, _, rfl, rfl, by decide⟩)
      value

/-- A written scope is cut short before its end. -/
theorem ScopeSpec.needsAll_read (spec : ScopeSpec) : NeedsAll read (compactChars spec.toJson) := by
  rw [toJson_eq_slots]
  exact needsAll_compact_record record_lawful
    (fun f value => ⟨takes_readField f value, needsAll_readField f value⟩) (nodup_slots spec)

namespace ModelSpec

theorem needsAll_readField (f : Field) (value : f.Value) :
    NeedsAll (readField f) (compactChars (encodeField f value)) := by
  cases f with
  | modelId => exact needsAll_compact_string value
  | version => exact needsAll_compact_string value
  | regions => exact needsAll_compact_texts value
  | acceptTypes => exact needsAll_compact_texts value
  | defaultAcceptType =>
    exact needsAll_compact_option needsAll_compact_string (fun _ => ⟨_, _, rfl, rfl, by decide⟩)
      value
  | training =>
    exact needsAll_compact_option ScopeSpec.needsAll_read ScopeSpec.exists_compact_toJson value
  | inference =>
    exact needsAll_compact_option ScopeSpec.needsAll_read ScopeSpec.exists_compact_toJson value

/-- What is written for a spec is needed to its end. -/
theorem needsAll_read (spec : ModelSpec) : NeedsAll read (compactChars spec.toJson) := by
  rw [toJson_eq_slots]
  exact needsAll_compact_record record_lawful
    (fun f value => ⟨takes_readField f value, needsAll_readField f value⟩) (nodup_slots spec)

theorem toList_toText (spec : ModelSpec) : spec.toText.toList = compactChars spec.toJson := by
  rw [toText, Json.compact, String.toList_ofList]

/-- **Extent.**  Each shorter front of the text of a spec is cut short.  Behind the whole text
blanks are stepped over, and anything else is malformed. -/
theorem ofText_of_extent (spec : ModelSpec) :
    (∀ front : String, IsCut front.toList spec.toText.toList → ofText front = .error .cutShort) ∧
      (∀ more : String, AllBlank more.toList → ofText (spec.toText ++ more) = .ok spec) ∧
      ∀ more : String, ¬AllBlank more.toList →
        ofText (spec.toText ++ more) = .error .malformed := by
  refine ⟨fun front hcut => ?_, fun more hblank => ?_, fun more hmore => ?_⟩
  · rw [toList_toText] at hcut
    exact (needsAll_read spec).readWhole hcut
  · rw [ofText, String.toList_append, toList_toText]
    exact (takes_read spec).readWhole hblank
  · rw [ofText, String.toList_append, toList_toText]
    exact (takes_read spec).readWhole_malformed hmore

/-- A spec whose identifier has a control character, with a scope. -/
def controlled : ModelSpec := (named "a\x01" "1").withInstanceTypes .training ["ml.g5"]

/-- The text of the spec cut inside an escape, and cut behind its scope; the text with a line end
behind it, and with one more brace. -/
theorem ofText_controlled :
    ofText "\x7b\"model_id\":\"a\\u00" = .error .cutShort ∧
      ofText (String.ofList controlled.toText.toList.dropLast) = .error .cutShort ∧
      ofText (controlled.toText ++ "\n") = .ok controlled ∧
      ofText (controlled.toText ++ "\x7d") = .error .malformed := by
  obtain ⟨hcut, hblank, hmore⟩ := ofText_of_extent controlled
  rw [toList_toText] at hcut ⊢
  have hlast : IsCut (compactChars controlled.toJson).dropLast (compactChars controlled.toJson) :=
    ⟨List.dropLast_prefix _, by decide +kernel⟩
  refine ⟨hcut _ ⟨by decide +kernel, by decide +kernel⟩, hcut _ ?_,
    hblank "\n" (by simp [AllBlank, isBlank]), hmore "\x7d" (by simp [AllBlank, isBlank])⟩
  rwa [String.toList_ofList]

end ModelSpec

end ServingCatalog
