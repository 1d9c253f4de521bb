/-
The regular expressions of the AI-provider forms, and what JavaScript does with them. A
pattern is a regular expression over character classes; `Matches` is the language it denotes,
and `accepts`, by Brzozowski derivatives, is a matcher that runs and decides it
(`accepts_iff`). Both patterns of the forms are anchored by `^` and `$` and carry no flag, so
`RegExp.prototype.test` asks whether the whole string is in the language, with no
backtracking state that could tell the two apart.
-/
import Mathlib.Data.List.Basic

namespace AIReviewPolling

/-- A regular expression whose letters are character classes. -/
inductive Regex where
  | eps
  | cls (p : Char → Bool)
  | seq (r t : Regex)
  | alt (r t : Regex)
  | star (r : Regex)

namespace Regex

variable {r t : Regex} {c : Char} {s u v : List Char}

/-- The class of no character: matches nothing. -/
def empty : Regex := cls fun _ => false

/-- One character, `[-]` or a literal. -/
def chr (c : Char) : Regex := cls (· == c)

/-- `r?` -/
def opt (r : Regex) : Regex := alt eps r

/-- `r+` -/
def plus (r : Regex) : Regex := seq r (star r)

/-- A literal run of characters. -/
def str : List Char → Regex
  | [] => eps
  | c :: s => seq (chr c) (str s)

/-- The words a pattern denotes. -/
inductive Matches : Regex → List Char → Prop where
  | eps : Matches eps []
  | cls {p : Char → Bool} {c : Char} : p c = true → Matches (cls p) [c]
  | seq {r t : Regex} {u v : List Char} : Matches r u → Matches t v → Matches (seq r t) (u ++ v)
  | altL {r t : Regex} {s : List Char} : Matches r s → Matches (alt r t) s
  | altR {r t : Regex} {s : List Char} : Matches t s → Matches (alt r t) s
  | starNil {r : Regex} : Matches (star r) []
  | starCons {r : Regex} {u v : List Char} : Matches r u → Matches (star r) v → Matches (star r) (u ++ v)

/-- The pattern matches the empty word. -/
def nullable : Regex → Bool
  | eps => true
  | cls _ => false
  | seq r t => nullable r && nullable t
  | alt r t => nullable r || nullable t
  | star _ => true

/-- The words `w` with `c :: w` in the language. -/
def deriv (c : Char) : Regex → Regex
  | eps => empty
  | cls p => if p c then eps else empty
  | seq r t => if nullable r then alt (seq (deriv c r) t) (deriv c t) else seq (deriv c r) t
  | alt r t => alt (deriv c r) (deriv c t)
  | star r => seq (deriv c r) (star r)

/-- Whether the whole word matches: `RegExp.prototype.test` for a pattern in `^...$`. -/
def accepts (r : Regex) : List Char → Bool
  | [] => nullable r
  | c :: s => accepts (deriv c r) s

@[simp] theorem matches_eps_iff : Matches eps s ↔ s = [] :=
  ⟨by rintro ⟨⟩; rfl, by rintro rfl; exact .eps⟩

@[simp] theorem matches_cls_iff {p : Char → Bool} : Matches (cls p) s ↔ ∃ c, s = [c] ∧ p c = true := by
  constructor
  · intro h; cases h with | cls h => exact ⟨_, rfl, h⟩
  · rintro ⟨c, rfl, h⟩; exact .cls h

@[simp] theorem matches_seq_iff : Matches (seq r t) s ↔ ∃ u v, s = u ++ v ∧ Matches r u ∧ Matches t v := by
  constructor
  · intro h; cases h with | seq hu hv => exact ⟨_, _, rfl, hu, hv⟩
  · rintro ⟨u, v, rfl, hu, hv⟩; exact .seq hu hv

@[simp] theorem matches_alt_iff : Matches (alt r t) s ↔ Matches r s ∨ Matches t s := by
  constructor
  · intro h; cases h with | altL h => exact .inl h | altR h => exact .inr h
  · rintro (h | h); exacts [.altL h, .altR h]

@[simp] theorem matches_empty_iff : Matches empty s ↔ False := by simp [empty]

theorem nullable_iff : nullable r = true ↔ Matches r [] := by
  induction r with
  | eps => simp [nullable]
  | cls p => simp [nullable]
  | seq r t ihr iht => simp [nullable, ihr, iht, and_assoc]
  | alt r t ihr iht => simp [nullable, ihr, iht]
  | star r => exact ⟨fun _ => .starNil, fun _ => rfl⟩

/-! ## Patterns built from smaller ones -/

theorem seq_eps_iff : Matches (seq eps r) s ↔ Matches r s := by
  simp only [matches_seq_iff, matches_eps_iff]
  exact ⟨by rintro ⟨_, _, rfl, rfl, h⟩; exact h, fun h => ⟨[], s, rfl, rfl, h⟩⟩

theorem seq_empty_iff : Matches (seq empty r) s ↔ False := by simp

theorem seq_assoc_iff {w : Regex} : Matches (seq (seq r t) w) s ↔ Matches (seq r (seq t w)) s := by
  simp only [matches_seq_iff]
  constructor
  · rintro ⟨_, v, rfl, ⟨u₁, u₂, rfl, h₁, h₂⟩, h₃⟩
    exact ⟨u₁, u₂ ++ v, List.append_assoc _ _ _, h₁, u₂, v, rfl, h₂, h₃⟩
  · rintro ⟨u, _, rfl, h₁, v₁, v₂, rfl, h₂, h₃⟩
    exact ⟨u ++ v₁, v₂, (List.append_assoc _ _ _).symm, ⟨u, v₁, rfl, h₁, h₂⟩, h₃⟩

theorem seq_cls_iff {p : Char → Bool} :
    Matches (seq (cls p) r) s ↔ ∃ c t, s = c :: t ∧ p c = true ∧ Matches r t := by
  simp only [matches_seq_iff, matches_cls_iff]
  constructor
  · rintro ⟨_, t, rfl, ⟨c, rfl, hc⟩, ht⟩; exact ⟨c, t, rfl, hc, ht⟩
  · rintro ⟨c, t, rfl, hc, ht⟩; exact ⟨[c], t, rfl, ⟨c, rfl, hc⟩, ht⟩

theorem seq_str_iff {l : List Char} : Matches (seq (str l) r) s ↔ ∃ t, s = l ++ t ∧ Matches r t := by
  induction l generalizing s with
  | nil => rw [str, seq_eps_iff]; simp
  | cons c l ih =>
    rw [str, seq_assoc_iff, chr, seq_cls_iff]
    simp only [ih, beq_iff_eq]
    constructor
    · rintro ⟨_, _, rfl, rfl, t, rfl, ht⟩; exact ⟨t, rfl, ht⟩
    · rintro ⟨t, rfl, ht⟩; exact ⟨c, l ++ t, rfl, rfl, t, rfl, ht⟩

theorem seq_opt_iff {w : Regex} : Matches (seq (opt r) w) s ↔ Matches w s ∨ Matches (seq r w) s := by
  simp only [opt, matches_seq_iff, matches_alt_iff, matches_eps_iff]
  constructor
  · rintro ⟨u, v, rfl, rfl | hu, hv⟩
    · exact .inl hv
    · exact .inr ⟨u, v, rfl, hu, hv⟩
  · rintro (h | ⟨u, v, rfl, hu, hv⟩)
    · exact ⟨[], s, rfl, .inl rfl, h⟩
    · exact ⟨u, v, rfl, .inr hu, hv⟩

theorem star_cls_iff {p : Char → Bool} : Matches (star (cls p)) s ↔ ∀ c ∈ s, p c = true := by
  constructor
  · intro h
    generalize hR : star (cls p) = R at h
    induction h with
    | starNil => simp
    | starCons hu _ _ ihv =>
      cases hR
      obtain ⟨c, rfl, hc⟩ := matches_cls_iff.mp hu
      simpa [hc] using ihv rfl
    | _ => cases hR
  · intro h
    induction s with
    | nil => exact .starNil
    | cons c s ih => exact .starCons (u := [c]) (.cls (h c (by simp))) (ih fun d hd => h d (by simp [hd]))

/-- Splitting `c :: s` in two: the first part is empty, or it starts with `c`. -/
theorem cons_split {P Q : List Char → Prop} :
    (∃ u v, c :: s = u ++ v ∧ P u ∧ Q v) ↔ (P [] ∧ Q (c :: s)) ∨ ∃ u v, s = u ++ v ∧ P (c :: u) ∧ Q v := by
  constructor
  · rintro ⟨u, v, huv, hu, hv⟩
    rcases List.cons_eq_append_iff.mp huv with ⟨rfl, rfl⟩ | ⟨u', rfl, rfl⟩
    · exact .inl ⟨hu, hv⟩
    · exact .inr ⟨u', v, rfl, hu, hv⟩
  · rintro (⟨hu, hv⟩ | ⟨u, v, rfl, hu, hv⟩)
    · exact ⟨[], c :: s, rfl, hu, hv⟩
    · exact ⟨c :: u, v, rfl, hu, hv⟩

/-- A word of `star r` that starts with `c` is a derivative of `r` by `c`, then `star r`. -/
theorem star_cons (ih : ∀ s, Matches (deriv c r) s ↔ Matches r (c :: s)) {w : List Char}
    (h : Matches (star r) w) : ∀ {s}, w = c :: s → Matches (seq (deriv c r) (star r)) s := by
  generalize hR : star r = R at h
  induction h with
  | starNil => intro s hs; cases hs
  | starCons hu hv _ ihv =>
    cases hR
    intro s hs
    rcases List.append_eq_cons_iff.mp hs with ⟨rfl, rfl⟩ | ⟨u', rfl, rfl⟩
    · exact ihv rfl rfl
    · exact .seq ((ih u').mpr hu) hv
  | _ => cases hR

theorem deriv_iff : ∀ {s}, Matches (deriv c r) s ↔ Matches r (c :: s) := by
  induction r with
  | eps => simp [deriv]
  | cls p => intro s; by_cases hp : p c <;> simp [deriv, hp, and_assoc]
  | seq r t ihr iht =>
    intro s
    rw [matches_seq_iff, cons_split, ← nullable_iff]
    by_cases hn : nullable r <;> simp [deriv, hn, ihr, iht, or_comm]
  | alt r t ihr iht => simp [deriv, ihr, iht]
  | star r ih =>
    intro s
    refine ⟨fun h => ?_, fun h => star_cons (fun _ => ih) h rfl⟩
    obtain ⟨u, v, rfl, hu, hv⟩ := matches_seq_iff.mp h
    exact .starCons (ih.mp hu) hv

/-- **The matcher decides the pattern's language.** -/
theorem accepts_iff : ∀ {r : Regex} {s : List Char}, accepts r s = true ↔ Matches r s
  | _, [] => nullable_iff
  | r, c :: _ => (accepts_iff (r := deriv c r)).trans deriv_iff

end Regex
end AIReviewPolling
