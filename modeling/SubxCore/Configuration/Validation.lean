import SubxCore.Configuration.Types
/-!
# Validation of single values

The low-level checks, each an error or nothing. A value cast to `f64` for
its check is checked as it is: the cast keeps the order, and is exact on
the bounds.
-/

namespace SubxCore.Configuration

open Text Decimal

/-- What a check comes to. -/
abbrev Check := Except SubXError Unit

/-- An early return with an error. -/
def refuseIf (condition : Prop) [Decidable condition] (message : Text) : Check :=
  if condition then .error (.config message) else .ok ()

/-- `validate_enum`. -/
def validateEnum (value : Text) (allowed : List Text) : Check :=
  if value ∈ allowed then .ok ()
  else .error (.config ("Invalid value '".toList ++ value ++ "'. Allowed values: ".toList ++
    join ", ".toList allowed))

/-- `validate_api_key`. -/
def validateApiKey (value : Text) : Check :=
  if value = [] then .error (.config "API key cannot be empty".toList)
  else if byteLen value < 10 then .error (.config "API key is too short".toList)
  else .ok ()

/-- `parse_bool`. -/
def parseBool (value : Text) : Except SubXError Bool :=
  if toLowercase value ∈ ["true", "1", "yes", "on", "enabled"].map String.toList then .ok true
  else if toLowercase value ∈ ["false", "0", "no", "off", "disabled"].map String.toList then
    .ok false
  else .error (.config ("Invalid boolean value: ".toList ++ value))

/-- `validate_url_format`, with the parser of URLs, which gives the scheme. -/
def validateUrlFormat (urlScheme : Text → Option Text) (value : Text) : Check :=
  if trim value = [] then .ok ()
  else if (urlScheme value).isSome then .ok ()
  else .error (.config ("Invalid URL format: ".toList ++ value))

/-- `validate_non_empty_string`. -/
def validateNonEmptyString (value fieldName : Text) : Check :=
  if trim value = [] then .error (.config (fieldName ++ " cannot be empty".toList))
  else .ok ()

section Numbers

variable {α : Type} [LT α] [DecidableLT α] [LE α] [DecidableLE α]

/-- `validate_positive_number`. -/
def validatePositiveNumber (shown : α → Text) (zero value : α) : Check :=
  if value ≤ zero then .error (.config ("Value must be positive, got: ".toList ++ shown value))
  else .ok ()

/-- `validate_range`. -/
def validateRange (shown : α → Text) (value min max : α) : Check :=
  if value < min ∨ max < value then
    .error (.config ("Value ".toList ++ shown value ++ " is outside allowed range [".toList ++
      shown min ++ ", ".toList ++ shown max ++ "]".toList))
  else .ok ()

end Numbers

/-- An unsigned number as a text. -/
def shown32 (n : UInt32) : Text := decimal n.toNat

/-- An unsigned number as a text. -/
def shown64 (n : UInt64) : Text := decimal n.toNat

/-- A check whose error is replaced. -/
def orElse (check : Check) (message : Text) : Check := check.mapError fun _ => .config message

/-- `validate_temperature`. -/
def validateTemperature (temperature : F32) : Check :=
  orElse (validateRange BinaryFloat.display temperature (f32 0 0) (f32 2 0))
    "AI temperature must be between 0.0 and 2.0".toList

/-- `validate_ai_model`. -/
def validateAiModel (model : Text) : Check := do
  validateNonEmptyString model "AI model".toList
  refuseIf (byteLen model > 100) "AI model name is too long (max 100 characters)".toList

/-! ## When a check passes -/

/-- Whether a check passes. -/
def Check.passes (check : Check) : Bool := check matches .ok _

@[simp] theorem passes_ok : Check.passes (.ok ()) = true := rfl

@[simp] theorem passes_error {error : SubXError} : Check.passes (.error error) = false := rfl

variable {check check' : Check}

theorem passes_iff : check.passes = true ↔ check = .ok () := by
  rcases check with error | ⟨⟨⟩⟩ <;> simp

/-- Checks in sequence pass when each does. -/
@[simp] theorem passes_bind : Check.passes (check >>= fun _ => check') =
    (check.passes && check'.passes) := by
  rcases check with error | ⟨⟨⟩⟩ <;> rfl

@[simp] theorem passes_refuseIf {condition : Prop} [Decidable condition] {message : Text} :
    (refuseIf condition message).passes = !decide condition := by
  unfold refuseIf
  split_ifs with h <;> simp [h]

@[simp] theorem passes_orElse {message : Text} : (orElse check message).passes = check.passes := by
  rcases check with error | ⟨⟨⟩⟩ <;> rfl

@[simp] theorem passes_validateEnum {value : Text} {allowed : List Text} :
    (validateEnum value allowed).passes = decide (value ∈ allowed) := by
  unfold validateEnum
  split_ifs with h <;> simp [h]

@[simp] theorem passes_validateUrlFormat {urlScheme : Text → Option Text} {value : Text} :
    (validateUrlFormat urlScheme value).passes =
      (decide (trim value = []) || (urlScheme value).isSome) := by
  unfold validateUrlFormat
  split_ifs with h h' <;> simp_all

@[simp] theorem passes_validateNonEmptyString {value fieldName : Text} :
    (validateNonEmptyString value fieldName).passes = !decide (trim value = []) := by
  unfold validateNonEmptyString
  split_ifs with h <;> simp [h]

section Numbers

variable {α : Type} [LT α] [DecidableLT α] [LE α] [DecidableLE α] {shown : α → Text}
  {zero value min max : α}

omit [LT α] [DecidableLT α] in
@[simp] theorem passes_validatePositiveNumber :
    (validatePositiveNumber shown zero value).passes = !decide (value ≤ zero) := by
  unfold validatePositiveNumber
  split_ifs with h <;> simp [h]

omit [LE α] [DecidableLE α] in
@[simp] theorem passes_validateRange :
    (validateRange shown value min max).passes = (!decide (value < min) && !decide (max < value)) := by
  unfold validateRange
  split_ifs with h
  · simpa [or_iff_not_imp_left] using h
  · simpa [not_or] using h

end Numbers

end SubxCore.Configuration
