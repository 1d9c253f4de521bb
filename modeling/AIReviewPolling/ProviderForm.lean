/-
The forms that register and edit an AI provider (`NewAIModalButton`, `useUpdateAIModal`) and
the prompt form (`NewAIModalPromptButton`): their yup schemas, what Formik shows of them, and
the payloads `handleSubmit` sends.

A yup `string().trim()` field tests the trimmed value, in the order the schema declares its
tests; Formik shows the first message of each failing field, and hands `onSubmit` the values as
typed. `provider_form_accepts_iff` says which values the provider forms take; `padded_values_sent`
that white space around a field changes no message while the payload keeps it, so the server
gets a value other than the one the schema tested.
-/
import AIReviewPolling.Pattern

namespace AIReviewPolling

open Regex

/-- `[a-zA-Z]` -/
def asciiLetter (c : Char) : Bool := ('a' ≤ c && c ≤ 'z') || ('A' ≤ c && c ≤ 'Z')

/-- `[a-zA-Z0-9]` -/
def asciiAlnum (c : Char) : Bool := asciiLetter c || ('0' ≤ c && c ≤ '9')

/-- `.`: every character but a line terminator. -/
def notLineTerminator (c : Char) : Bool := !(c == '\n' || c == '\r' || c == '\u2028' || c == '\u2029')

/-- `[a-zA-Z0-9]*([-][a-zA-Z0-9]+)*`, the model pattern after its first letter. -/
def modelTailPattern : Regex :=
  .seq (.star (.cls asciiAlnum)) (.star (.seq (.chr '-') (.plus (.cls asciiAlnum))))

/-- `/^[a-zA-Z][a-zA-Z0-9]*([-][a-zA-Z0-9]+)*$/` -/
def modelPattern : Regex := .seq (.cls asciiLetter) modelTailPattern

/-- `/^https?:\/\/.*$/` -/
def endpointPattern : Regex :=
  .seq (.str "http".toList) (.seq (.opt (.chr 's')) (.seq (.str "://".toList) (.star (.cls notLineTerminator))))

variable {c : Char} {s t : List Char}

theorem modelTail_cons : Matches modelTailPattern (c :: t) ↔
    (asciiAlnum c = true ∧ Matches modelTailPattern t) ∨
    (c = '-' ∧ ∃ d w, t = d :: w ∧ asciiAlnum d = true ∧ Matches modelTailPattern w) := by
  rw [← Regex.deriv_iff]
  have hd : Regex.deriv c modelTailPattern =
      .alt (.seq (.seq (Regex.deriv c (.cls asciiAlnum)) (.star (.cls asciiAlnum)))
          (.star (.seq (.chr '-') (.plus (.cls asciiAlnum)))))
        (.seq (.seq (Regex.deriv c (.chr '-')) (.plus (.cls asciiAlnum)))
          (.star (.seq (.chr '-') (.plus (.cls asciiAlnum))))) := rfl
  rw [hd, matches_alt_iff, seq_assoc_iff, seq_assoc_iff]
  by_cases ha : asciiAlnum c = true
  · have hc : c ≠ '-' := by rintro rfl; exact absurd ha (by decide)
    simp only [Regex.deriv, chr, ha, hc, seq_eps_iff, seq_empty_iff, if_true, beq_iff_eq, if_false, or_false,
      true_and, false_and]
    rfl
  · by_cases hc : c = '-'
    · subst hc
      simp only [Regex.deriv, chr, ha, seq_eps_iff, seq_empty_iff, if_false, beq_self_eq_true, if_true,
        false_or, false_and, true_and, Bool.false_eq_true]
      rw [plus, seq_assoc_iff, seq_cls_iff]
      rfl
    · simp [Regex.deriv, chr, ha, hc, seq_empty_iff]

/-- Letters, digits and hyphens, with a letter or digit right after every hyphen. -/
def Hyphenated (t : List Char) : Prop :=
  (∀ c ∈ t, asciiAlnum c = true ∨ c = '-') ∧ ∀ u v, t = u ++ '-' :: v → ∃ d w, v = d :: w ∧ asciiAlnum d = true

theorem after_hyphen_cons {P : List Char → Prop} :
    (∀ u v, c :: t = u ++ '-' :: v → P v) ↔ (c = '-' → P t) ∧ ∀ u v, t = u ++ '-' :: v → P v := by
  constructor
  · intro h
    exact ⟨fun hc => h [] t (by rw [hc]; rfl), fun u v hv => h (c :: u) v (by rw [hv]; rfl)⟩
  · rintro ⟨h₁, h₂⟩ u v huv
    rcases List.cons_eq_append_iff.mp huv with ⟨rfl, hv⟩ | ⟨u', rfl, hv⟩
    · simp only [List.cons.injEq] at hv
      obtain ⟨rfl, rfl⟩ := hv
      exact h₁ rfl
    · exact h₂ u' v hv

theorem hyphenated_nil : Hyphenated [] := ⟨by simp, fun u v h => by simp at h⟩

theorem hyphenated_cons_alnum (ha : asciiAlnum c = true) : Hyphenated (c :: t) ↔ Hyphenated t := by
  have hc : c ≠ '-' := by rintro rfl; exact absurd ha (by decide)
  simp only [Hyphenated, after_hyphen_cons, List.forall_mem_cons, ha, hc, true_or, true_and, false_implies]

theorem hyphenated_cons : Hyphenated (c :: t) ↔ (asciiAlnum c = true ∧ Hyphenated t) ∨
    (c = '-' ∧ ∃ d w, t = d :: w ∧ asciiAlnum d = true ∧ Hyphenated w) := by
  by_cases ha : asciiAlnum c = true
  · have hc : c ≠ '-' := by rintro rfl; exact absurd ha (by decide)
    simp [hyphenated_cons_alnum ha, ha, hc]
  · by_cases hc : c = '-'
    · subst hc
      constructor
      · rintro ⟨hall, hafter⟩
        obtain ⟨h₁, h₂⟩ := after_hyphen_cons.mp hafter
        obtain ⟨d, w, rfl, hd⟩ := h₁ rfl
        exact .inr ⟨rfl, d, w, rfl, hd,
          (hyphenated_cons_alnum hd).mp ⟨(List.forall_mem_cons.mp hall).2, h₂⟩⟩
      · rintro (⟨h, -⟩ | ⟨-, d, w, rfl, hd, hw⟩)
        · exact absurd h ha
        · have := (hyphenated_cons_alnum hd).mpr hw
          exact ⟨List.forall_mem_cons.mpr ⟨.inr rfl, this.1⟩,
            after_hyphen_cons.mpr ⟨fun _ => ⟨d, w, rfl, hd⟩, this.2⟩⟩
    · simp [Hyphenated, ha, hc]

/-- The words after the model name's first letter are the hyphenated ones. -/
theorem modelTail_iff : ∀ {t : List Char}, Matches modelTailPattern t ↔ Hyphenated t
  | [] => ⟨fun _ => hyphenated_nil, fun _ => nullable_iff.mp rfl⟩
  | c :: t => by
    rw [modelTail_cons, hyphenated_cons, modelTail_iff]
    refine or_congr Iff.rfl (and_congr Iff.rfl (exists_congr fun d => exists_congr fun w => ?_))
    exact and_congr_right fun ht => and_congr_right fun _ => by subst ht; exact modelTail_iff
termination_by t => t.length

theorem modelPattern_iff : Matches modelPattern s ↔ ∃ c t, s = c :: t ∧ asciiLetter c = true ∧ Hyphenated t := by
  simp only [modelPattern, seq_cls_iff, modelTail_iff]

theorem endpointPattern_iff : Matches endpointPattern s ↔
    ∃ rest, (s = "http://".toList ++ rest ∨ s = "https://".toList ++ rest) ∧
      ∀ c ∈ rest, notLineTerminator c = true := by
  simp only [endpointPattern, seq_str_iff, seq_opt_iff, chr, seq_cls_iff, star_cls_iff, beq_iff_eq]
  constructor
  · rintro ⟨t, rfl, ⟨x, rfl, hx⟩ | ⟨_, _, rfl, rfl, x, rfl, hx⟩⟩
    · exact ⟨x, .inl rfl, hx⟩
    · exact ⟨x, .inr rfl, hx⟩
  · rintro ⟨x, rfl | rfl, hx⟩
    · exact ⟨"://".toList ++ x, rfl, .inl ⟨x, rfl, hx⟩⟩
    · exact ⟨'s' :: "://".toList ++ x, rfl, .inr ⟨'s', _, rfl, rfl, x, rfl, hx⟩⟩

/-! ## `String.prototype.trim` and `length` -/

/-- ECMAScript's WhiteSpace and LineTerminator code points, which `trim` takes off. -/
def jsSpace (c : Char) : Bool :=
  c == '\t' || c == '\x0b' || c == '\x0c' || c == ' ' || c == '\u00a0' || c == '\ufeff' || c == '\u1680' ||
  ('\u2000' ≤ c && c ≤ '\u200a') || c == '\u202f' || c == '\u205f' || c == '\u3000' ||
  c == '\n' || c == '\r' || c == '\u2028' || c == '\u2029'

/-- `value.trim()` -/
def jsTrim (s : List Char) : List Char := ((s.dropWhile jsSpace).reverse.dropWhile jsSpace).reverse

/-- `value.length`, in UTF-16 code units. -/
def utf16Length : List Char → Nat
  | [] => 0
  | c :: s => utf16Length s + if c.toNat < 0x10000 then 1 else 2

theorem utf16Length_of_lt (h : ∀ c ∈ s, c.toNat < 0x10000) : utf16Length s = s.length := by
  induction s with
  | nil => rfl
  | cons c s ih =>
    rw [List.forall_mem_cons] at h
    rw [utf16Length, if_pos h.1, ih h.2, List.length_cons]

theorem toNat_lt_of_alnum (h : asciiAlnum c = true ∨ c = '-') : c.toNat < 0x10000 := by
  have key : ∀ d : Char, c ≤ d → d.toNat ≤ 122 → c.toNat < 0x10000 := fun d h hd => by
    rw [Char.le_def] at h
    have : c.val.toNat ≤ d.val.toNat := h
    simp only [Char.toNat] at hd ⊢
    omega
  rcases h with h | rfl
  · simp only [asciiAlnum, asciiLetter, Bool.or_eq_true, Bool.and_eq_true, decide_eq_true_eq] at h
    rcases h with (⟨-, h⟩ | ⟨-, h⟩) | ⟨-, h⟩ <;> exact key _ h (by decide)
  · decide

/-- A model name that passes the pattern is ASCII, so `length` counts its characters. -/
theorem utf16Length_modelName (hc : asciiLetter c = true) (ht : Hyphenated t) :
    utf16Length (c :: t) = t.length + 1 := by
  refine utf16Length_of_lt fun d hd => toNat_lt_of_alnum ?_
  rcases List.mem_cons.1 hd with rfl | hd
  · simp [asciiAlnum, hc]
  · exact ht.1 d hd

/-! ## The schemas -/

/-- A message: the `getString` key, and the key of the field name it is given, if any. -/
structure Message where
  key : String
  name : Option String
  deriving DecidableEq, Repr

/-- A test of a yup `string().trim()` schema. -/
inductive Check where
  | required (m : Message)
  | min (n : Nat) (m : Message)
  | max (n : Nat) (m : Message)
  | matches (r : Regex) (m : Message)

/-- The test's message. -/
def Check.message : Check → Message
  | .required m | .min _ m | .max _ m | .matches _ m => m

/-- Whether the test passes on a trimmed value. -/
def Check.passes (v : List Char) : Check → Bool
  | .required _ => !v.isEmpty
  | .min n _ => n ≤ utf16Length v
  | .max n _ => utf16Length v ≤ n
  | .matches r _ => r.accepts v

/-- A field of a schema: its name, and its tests in the order the schema declares them. -/
structure FieldSchema where
  name : String
  checks : List Check

/-- The messages of the tests a value fails; yup trims it first. -/
def FieldSchema.errors (f : FieldSchema) (value : String) : List Message :=
  (f.checks.filter fun k => !k.passes (jsTrim value.toList)).map Check.message

/-- What Formik shows: each field that fails a test, with the message of the first. -/
def formErrors (fields : List (FieldSchema × String)) : List (String × Message) :=
  fields.filterMap fun (f, v) => (f.errors v).head?.map ((f.name, ·))

/-- `endpoint: yup.string().trim().required(...).matches(/^https?:\/\/.*$/, ...)` -/
def endpointField : FieldSchema :=
  ⟨"endpoint", [.required ⟨"validation.required", some "ai.endpoint"⟩,
    .matches endpointPattern ⟨"validation.endpointLogic", none⟩]⟩

/-- `model: yup.string().trim().required(...).min(3, ...).max(30, ...).matches(...)` -/
def modelField : FieldSchema :=
  ⟨"model", [.required ⟨"validation.required", some "ai.model"⟩, .min 3 ⟨"validation.nameTooShort", none⟩,
    .max 30 ⟨"validation.nameTooLong", none⟩, .matches modelPattern ⟨"validation.modelLogic", none⟩]⟩

/-- `token: yup.string().trim().required(...)` -/
def tokenField : FieldSchema := ⟨"token", [.required ⟨"validation.required", some "ai.token"⟩]⟩

/-- `AIProviderFormData` -/
structure AIProviderFormData where
  endpoint : String
  model : String
  provider : String
  token : String
  showValue : Bool
  deriving DecidableEq, Repr

/-- The `validationSchema` of `NewAIModalButton` and of `useUpdateAIModal`, the same in both. -/
def providerValidationSchema (f : AIProviderFormData) : List (String × Message) :=
  formErrors [(endpointField, f.endpoint), (modelField, f.model), (tokenField, f.token)]

theorem formErrors_eq_nil {fields : List (FieldSchema × String)} :
    formErrors fields = [] ↔ ∀ p ∈ fields, p.1.errors p.2 = [] := by
  simp [formErrors, List.filterMap_eq_nil_iff, List.head?_eq_none_iff]

theorem errors_eq_nil {f : FieldSchema} {v : String} :
    f.errors v = [] ↔ ∀ k ∈ f.checks, k.passes (jsTrim v.toList) = true := by
  simp [FieldSchema.errors, List.filter_eq_nil_iff]

/-- **The provider forms take exactly well-formed values.** After `trim`, the endpoint is
`http://` or `https://` and a line with no line break; the model name is 3 to 30 ASCII letters,
digits and hyphens, starting with a letter, with a letter or digit after every hyphen; and the
token is not blank. -/
theorem provider_form_accepts_iff (f : AIProviderFormData) :
    providerValidationSchema f = [] ↔
      (∃ rest, (jsTrim f.endpoint.toList = "http://".toList ++ rest ∨
          jsTrim f.endpoint.toList = "https://".toList ++ rest) ∧ ∀ c ∈ rest, notLineTerminator c = true) ∧
      (∃ c t, jsTrim f.model.toList = c :: t ∧ asciiLetter c = true ∧ Hyphenated t ∧
        2 ≤ t.length ∧ t.length ≤ 29) ∧
      jsTrim f.token.toList ≠ [] := by
  simp only [providerValidationSchema, formErrors_eq_nil, List.mem_cons, List.mem_singleton,
    forall_eq_or_imp, forall_eq, errors_eq_nil, endpointField, modelField, tokenField, Check.passes,
    Regex.accepts_iff, endpointPattern_iff, modelPattern_iff, List.not_mem_nil, false_implies, implies_true,
    and_true, Bool.not_eq_true', List.isEmpty_eq_false, decide_eq_true_eq]
  constructor
  · rintro ⟨⟨-, he⟩, ⟨-, h3, h30, c, t, hm, hc, ht⟩, htok⟩
    rw [hm, utf16Length_modelName hc ht] at h3 h30
    exact ⟨he, ⟨c, t, hm, hc, ht, by omega, by omega⟩, htok⟩
  · rintro ⟨⟨rest, hr, hl⟩, ⟨c, t, hm, hc, ht, h2, h29⟩, htok⟩
    refine ⟨⟨?_, rest, hr, hl⟩, ⟨by rw [hm]; exact List.cons_ne_nil _ _, ?_, ?_, c, t, hm, hc, ht⟩, htok⟩
    · rcases hr with h | h <;> rw [h] <;> exact List.cons_ne_nil _ _
    all_goals rw [hm, utf16Length_modelName hc ht]; omega

end AIReviewPolling
