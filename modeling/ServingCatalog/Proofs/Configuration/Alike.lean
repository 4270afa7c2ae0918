import ServingCatalog.Proofs.Configuration.Holding
import ServingCatalog.Proofs.Configuration.Passes
import ServingCatalog.Proofs.Settings.Steady

/-!
# Configurations from settings that are alike

The configuration sees of the merged settings only what shows along paths: its decoders are steady.
So settings that are alike hold the same layers (`Holds.alike`), and make the same configuration, or
none both times (`toOption_ofEntries_of_alike`).  Which fault is reported may differ.
-/

namespace ServingCatalog

open Setting

/-! ## The decoders -/

theorem LoggingLayer.steady_decode : ∀ f, Steady (LoggingLayer.coding.decode f)
  | .level => steady_text
  | .format => steady_choice _ _ _

theorem CatalogLayer.steady_decode : ∀ f, Steady (CatalogLayer.coding.decode f)
  | .defaultRegion => steady_text
  | .models => steady_list _

theorem LoggingConfig.steady_decodeSetting : Steady LoggingConfig.decodeSetting :=
  steady_record LoggingLayer.coding.lawful LoggingLayer.steady_decode

theorem CatalogConfig.steady_decodeSetting : Steady CatalogConfig.decodeSetting :=
  steady_record CatalogLayer.coding.lawful CatalogLayer.steady_decode

namespace Configuration

/-- **The decoder** of the configuration sees what shows. -/
theorem steady_decodeSetting : Steady Configuration.decodeSetting := by
  refine steady_record record_lawful fun f => ?_
  cases f with
  | logging => exact LoggingConfig.steady_decodeSetting
  | catalog => exact CatalogConfig.steady_decodeSetting

end Configuration

/-! ## Layers that are held -/

/-- Settings that are alike hold the same layers. -/
theorem Holds.alike {one other : Entries} {layer : Layer} (h : Holds one layer)
    (halike : AlikeEntries one other) (hone : (Setting.table none one).Settled)
    (hother : (Setting.table none other).Settled) : Holds other layer :=
  ⟨hother.nodup,
    Shown.rel_alike CatalogLayer.steady_decode h.catalog (halike _) hone.get? hother.get?,
    Shown.rel_alike LoggingLayer.steady_decode h.logging (halike _) hone.get? hother.get?⟩

namespace Configuration

/-! ## Outcomes up to the fault -/

/-- What succeeds with the same values is the same up to the fault. -/
theorem toOption_eq_of_imp {ε α : Type} {one other : Except ε α}
    (hone : ∀ value, one = .ok value → other = .ok value)
    (hother : ∀ value, other = .ok value → one = .ok value) : one.toOption = other.toOption := by
  cases one with
  | ok value => rw [hone value rfl]
  | error fault =>
    cases other with
    | error reason => rfl
    | ok value => cases hother value rfl

/-- Settings that are alike make the same configuration, or none both times. -/
theorem toOption_ofEntries_of_alike {one other : Entries} (h : AlikeEntries one other)
    (hone : (Setting.table none one).Settled) (hother : (Setting.table none other).Settled) :
    (ofEntries one).toOption = (ofEntries other).toOption :=
  toOption_eq_of_imp
    (fun _ hvalue => steady_decodeSetting (alike_table h none none) hone hother hvalue)
    (fun _ hvalue => steady_decodeSetting (alike_table h.symm none none) hother hone hvalue)

/-- Settings that are alike are merged alike, in whatever order they are gone through at last, if
their keys are one step each. -/
theorem toOption_merge_of_alike {loader other : Loader} {one last : List Source}
    (h : AlikeOutcome (layAll loader one) (layAll other last))
    (hone : ∀ entries, layAll loader one = .ok entries → PlainTable entries)
    (hlast : ∀ entries, layAll other last = .ok entries → PlainTable entries) :
    (merge loader one >>= ofEntries).toOption = (merge other last >>= ofEntries).toOption := by
  cases hfirst : layAll loader one with
  | error fault =>
    rw [hfirst] at h
    cases hsecond : layAll other last with
    | error reason =>
      rw [merge, merge, hfirst, hsecond]
      rfl
    | ok above =>
      rw [hsecond] at h
      cases h
  | ok below =>
    rw [hfirst] at h
    obtain ⟨above, hsecond, halike⟩ := h.exists_ok
    rw [merge_of_layAll hfirst (hone below hfirst), merge_of_layAll hsecond (hlast above hsecond)]
    have hbelow := settled_layAll hfirst
    have habove := settled_layAll hsecond
    refine toOption_ofEntries_of_alike (((alikeEntries_ordered hbelow _).symm.trans halike).trans
      (alikeEntries_ordered habove _)) ?_ ?_
    · have hordered := hbelow.ordered (loader.order .merged)
      rwa [Setting.ordered] at hordered
    · have hordered := habove.ordered (other.order .merged)
      rwa [Setting.ordered] at hordered

/-- **Loading alike.**  Files and an environment that are laid alike make the same configuration, or
none both times, if the files that can be read are layers. -/
theorem toOption_loadFrom_of_laidAlike {loader other : Loader} {files others : Files}
    {defaultName localName : String} {one last : List (String × String)}
    (hlower : LaidAlike loader other .lower (fileSource loader files defaultName)
      (fileSource other others defaultName))
    (hupper : LaidAlike loader other .upper (fileSource loader files localName)
      (fileSource other others localName))
    (henvironment : LaidAlike loader other .environment (.ok (Environment.source one))
      (.ok (Environment.source last)))
    (hdefault : IsLayered loader files defaultName ∧ IsLayered other others defaultName)
    (hlocal : IsLayered loader files localName ∧ IsLayered other others localName) :
    (loadFrom loader defaultName localName files one).toOption =
      (loadFrom other defaultName localName others last).toOption := by
  have hnone : AlikeOutcome (layAll loader []) (layAll other []) := .refl _
  have hfiles := alikeOutcome_layAll_append (alikeOutcome_layAll_append hnone .lower hlower) .upper
    hupper
  exact toOption_merge_of_alike (alikeOutcome_layAll_append hfiles .environment henvironment)
    (fun _ => plainTable_of_isLayered loader hdefault.1 hlocal.1)
    (fun _ => plainTable_of_isLayered other hdefault.2 hlocal.2)

end Configuration

end ServingCatalog
