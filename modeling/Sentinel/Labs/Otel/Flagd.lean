import Sentinel.Python.Values

/-! Edits of the flag document, which holds the flags with their variants, their default
variant and, for some, a targeting rule. -/
namespace Sentinel.Labs.Otel
open Python

def flagdError (message : String) : Exn := ⟨"FlagdControlError", message, false⟩

/-- `_flags`. -/
def flags (document : Json) : Py (List (String × Json)) := do
  match ← document.get "flags" with
  | .dict entries => pure entries
  | _ => throw (flagdError "flag document missing flags object")

/-- `isinstance(variants, dict) and variant in variants`. -/
def hasVariant (variants : Json) (variant : String) : Bool :=
  variants.isDict && (variants.lookup variant).isSome

def setFlagVariant (document : Json) (rawFlagKey variant : String) : Py Json := do
  let entries ← flags document
  match (entries.lookup rawFlagKey).getD .null with
  | .null => throw (flagdError s!"unknown flag: {rawFlagKey}")
  | flag =>
    let variants ← flag.get "variants"
    if hasVariant variants variant then
      let flag ← flag.setItem "defaultVariant" (.str variant)
      document.setItem "flags" (.dict (assign rawFlagKey flag entries))
    else throw (flagdError s!"unknown variant {variant} for flag {rawFlagKey}")

/-- What `reset_all_flags` does to one flag. -/
def resetFlag (variant : String) (entry : String × Json) : Py (String × Json) := do
  let variants ← entry.2.get "variants"
  if hasVariant variants variant then
    let flag ← entry.2.setItem "defaultVariant" (.str variant)
    pure (entry.1, flag)
  else throw (flagdError s!"flag {entry.1} has no {variant} variant")

def resetAllFlags (document : Json) (variant : String) : Py Json := do
  let entries ← flags document
  let entries ← entries.mapM (resetFlag variant)
  document.setItem "flags" (.dict entries)

section
variable {document flag : Json} {fields entries : List (String × Json)} {key variant : String}

theorem flags_dict (held : fields.lookup "flags" = some (.dict entries)) :
    flags (.dict fields) = .ok entries := by
  simp [flags, Json.get, held, bind, Except.bind, pure, Except.pure]

/-- A flag that exists, with the variant. -/
structure Offers (flag : Json) (variant : String) : Prop where
  isDict : flag.isDict = true
  variants : ∃ variants, flag.lookup "variants" = some variants ∧ hasVariant variants variant = true

/-- The flag with another default variant. -/
def withDefault (flag : Json) (variant : String) : Json :=
  .dict (assign "defaultVariant" (.str variant) flag.entries)

theorem lookup_withDefault (flag : Json) (variant field : String) :
    (withDefault flag variant).lookup field =
      if field = "defaultVariant" then some (.str variant) else flag.lookup field := by
  rw [withDefault, Json.lookup, Json.entries, Json.lookup, lookup_assign]

theorem Offers.afterDefault {other : String} (offers : Offers flag other) :
    Offers (withDefault flag variant) other := by
  obtain ⟨variants, found, has⟩ := offers.variants
  exact ⟨rfl, variants, by rw [lookup_withDefault, if_neg (by decide), found], has⟩

theorem resetFlag_ok (offers : Offers flag variant) :
    resetFlag variant (key, flag) = .ok (key, withDefault flag variant) := by
  obtain ⟨isDict, variants, found, has⟩ := offers
  cases flag with
  | dict fields =>
    simp only [Json.lookup, Json.entries] at found
    simp [resetFlag, Json.get, found, has, Json.setItem, withDefault, Json.entries, bind,
      Except.bind, pure, Except.pure]
  | _ => cases isDict

theorem setFlagVariant_ok (held : fields.lookup "flags" = some (.dict entries))
    (named : entries.lookup key = some flag) (offers : Offers flag variant) :
    setFlagVariant (.dict fields) key variant =
      .ok (.dict (assign "flags" (.dict (assign key (withDefault flag variant) entries)) fields)) := by
  obtain ⟨isDict, variants, found, has⟩ := offers
  cases flag with
  | dict flagFields =>
    simp only [Json.lookup, Json.entries] at found
    simp [setFlagVariant, flags_dict held, named, Json.get, found, has, Json.setItem,
      withDefault, Json.entries, bind, Except.bind]
  | _ => cases isDict

theorem resetAllFlags_ok (held : fields.lookup "flags" = some (.dict entries))
    (offers : ∀ entry ∈ entries, Offers entry.2 variant) :
    resetAllFlags (.dict fields) variant =
      .ok (.dict (assign "flags"
        (.dict (entries.map fun entry => (entry.1, withDefault entry.2 variant))) fields)) := by
  have each : entries.mapM (resetFlag variant) =
      .ok (entries.map fun entry => (entry.1, withDefault entry.2 variant)) :=
    mapM_eq_map fun entry member => resetFlag_ok (offers entry member)
  simp [resetAllFlags, flags_dict held, each, Json.setItem, bind, Except.bind]

end

end Sentinel.Labs.Otel
