import Mathlib.Data.List.TakeWhile
import StyleCalc.Configuration.Reading
import StyleCalc.Double

set_option autoImplicit false

namespace StyleCalc

namespace Text

@[simp]
theorem trimChars_eq_nil (s : List Char) : trimChars s = [] ↔ ∀ c ∈ s, isBlank c = true := by
  rw [trimChars, List.reverse_eq_nil_iff, List.dropWhile_eq_nil_iff]
  constructor
  · intro blank
    cases kept : s.dropWhile isBlank with
    | nil => exact List.dropWhile_eq_nil_iff.mp kept
    | cons c rest =>
        have sharp := head_dropWhile s c (by rw [kept]; rfl)
        rw [blank c (by simp [kept])] at sharp
        cases sharp
  · intro blank c member
    exact blank c ((List.dropWhile_sublist isBlank).subset (List.mem_reverse.mp member))

end Text

namespace Double

open Float.Model

theorem lt_unpack (x y : Float) : x < y ↔ UnpackedFloat.lt x.toModel.unpack y.toModel.unpack = true := by
  change decide (x.toModel < y.toModel) = true ↔ _
  exact decide_eq_true_iff

theorem le_unpack (x y : Float) : x ≤ y ↔ UnpackedFloat.le x.toModel.unpack y.toModel.unpack = true := by
  change decide (x.toModel ≤ y.toModel) = true ↔ _
  exact decide_eq_true_iff

theorem positive_iff (x : Float) : Scalar.lt (Scalar.ofNat 0) x = true ↔ 0 < x :=
  decide_eq_true_iff

theorem zero_le_unpacked (x : UnpackedFloat) :
    UnpackedFloat.le (.zero .positive) x =
      (UnpackedFloat.lt (.zero .positive) x || UnpackedFloat.beq x (.zero .positive)) := by
  cases x with
  | notANumber => rfl
  | infinity sign => cases sign <;> rfl
  | zero sign => rfl
  | finite sign mantissa exponent positive => cases sign <;> rfl

theorem nonnegative_iff (x : Float) : Scalar.isNonnegative x = true ↔ 0 ≤ x := by
  rw [Scalar.isNonnegative, Bool.or_eq_true, positive_iff, lt_unpack, le_unpack]
  have zero := zero_le_unpacked x.toModel.unpack
  rw [Bool.eq_iff_iff, Bool.or_eq_true] at zero
  exact zero.symm

end Double

inductive Requirement where
  | viewportWidth
  | viewportHeight
  | elementWidth
  | elementHeight
  | fontSize
  | rootFontSize
  | baseUrl
  | named (name : String)

namespace Requirement

def field : Requirement → String
  | viewportWidth => "viewport.width"
  | viewportHeight => "viewport.height"
  | elementWidth => "element.width"
  | elementHeight => "element.height"
  | fontSize => "fonts.size"
  | rootFontSize => "fonts.root"
  | baseUrl => "urls.base"
  | named name => "vars." ++ name

def message : Requirement → String
  | viewportWidth | viewportHeight | elementWidth | elementHeight => "must be a non-negative number"
  | fontSize | rootFontSize => "must be a positive number"
  | baseUrl => "must be an absolute URL"
  | named _ => "must have a name"

def issue (r : Requirement) : Issue :=
  ⟨r.field, r.message⟩

def place : Requirement → Nat
  | viewportWidth => 0
  | viewportHeight => 1
  | elementWidth => 2
  | elementHeight => 3
  | fontSize => 4
  | rootFontSize => 5
  | baseUrl => 6
  | named _ => 7

def Precedes (a b : Requirement) : Prop :=
  a.place < b.place ∨ ∃ first second, a = named first ∧ b = named second ∧ first < second

theorem field_injective (a b : Requirement) (same : a.field = b.field) : a = b := by
  -- The second letter of a field tells the variables from all others.
  have letters := congrArg (·.toList[1]?) same
  cases a with
  | named first =>
      cases b with
      | named second => exact congrArg named (by simpa [field] using same)
      | _ => simp [field] at letters
  | _ =>
      cases b with
      | named second => simp [field] at letters
      | _ => first | rfl | simp [field] at same

theorem precedes_unequal (a b : Requirement) (before : a.Precedes b) : a.issue ≠ b.issue := by
  intro same
  obtain rfl := field_injective a b (congrArg Issue.field same)
  rcases before with before | ⟨first, second, rfl, repeated, before⟩
  · exact Nat.lt_irrefl _ before
  · obtain rfl := named.inj repeated
    exact String.lt_irrefl first before

end Requirement

namespace Configuration

open Requirement

@[simp]
theorem side_iff (x : Float) : isSide x = true ↔ x.isFinite ∧ 0 ≤ x := by
  rw [isSide, Bool.and_eq_true, Double.nonnegative_iff]
  exact Iff.rfl

@[simp]
theorem font_size_iff (x : Float) : isFontSize x = true ↔ x.isFinite ∧ 0 < x := by
  rw [isFontSize, Bool.and_eq_true, Double.positive_iff]
  exact Iff.rfl

def sortedNames (c : Configuration Float) : List String :=
  (c.variables.map (·.1)).mergeSort fun a b => decide (a ≤ b)

def requirements (c : Configuration Float) : List Requirement :=
  [viewportWidth, viewportHeight, elementWidth, elementHeight, fontSize, rootFontSize, baseUrl]
    ++ c.sortedNames.map named

theorem sorted_names_ordered (c : Configuration Float) : c.sortedNames.Pairwise (· ≤ ·) := by
  have sorted : c.sortedNames.Pairwise fun a b => decide (a ≤ b) = true :=
    List.pairwise_mergeSort (fun a b d => by simpa using String.le_trans)
      (fun a b => by simpa using String.le_total a b) (c.variables.map (·.1))
  exact sorted.imp of_decide_eq_true

theorem sorted_names_perm (c : Configuration Float) : c.sortedNames.Perm (c.variables.map (·.1)) :=
  List.mergeSort_perm _ _

theorem sorted_names_increase (c : Configuration Float) (distinct : (c.variables.map (·.1)).Nodup) :
    c.sortedNames.Pairwise (· < ·) := by
  have unequal : c.sortedNames.Nodup := c.sorted_names_perm.nodup_iff.mpr distinct
  exact c.sorted_names_ordered.imp₂ (fun a b before other => Std.lt_of_le_of_ne before other) unequal

theorem requirements_in_order (c : Configuration Float) (distinct : (c.variables.map (·.1)).Nodup) :
    c.requirements.Pairwise Requirement.Precedes := by
  have fixed : [viewportWidth, viewportHeight, elementWidth, elementHeight, fontSize, rootFontSize,
      baseUrl].Pairwise fun a b => a.place < b.place := by
    rw [← List.pairwise_map]
    decide
  have entries : (c.sortedNames.map named).Pairwise Requirement.Precedes :=
    List.pairwise_map.mpr ((c.sorted_names_increase distinct).imp fun before => .inr ⟨_, _, rfl, rfl, before⟩)
  refine List.pairwise_append.mpr ⟨fixed.imp .inl, entries, ?_⟩
  intro r first entry last
  obtain ⟨name, _, rfl⟩ := List.mem_map.mp last
  have before : r.place < 7 := by
    cases r with
    | named other => simp at first
    | _ => decide
  exact .inl before

@[simp]
theorem mem_sorted_names (c : Configuration Float) (name : String) :
    name ∈ c.sortedNames ↔ name ∈ c.variables.map (·.1) :=
  c.sorted_names_perm.mem_iff

theorem mem_requirements (c : Configuration Float) (r : Requirement) :
    r ∈ c.requirements ↔ ∀ name, r = named name → name ∈ c.variables.map (·.1) := by
  rw [requirements, List.mem_append]
  cases r with
  | named name => simp
  | _ => simp

@[simp]
theorem nameless_iff (name : String) : isNamed name = false ↔ ∀ x ∈ name.toList, Text.isBlank x = true := by
  rw [isNamed, ← Text.trimChars_eq_nil, decide_eq_false_iff_not, not_not]

@[simp]
theorem not_side_iff (x : Float) : isSide x = false ↔ ¬ (x.isFinite ∧ 0 ≤ x) := by
  rw [← side_iff, Bool.not_eq_true]

@[simp]
theorem not_font_size_iff (x : Float) : isFontSize x = false ↔ ¬ (x.isFinite ∧ 0 < x) := by
  rw [← font_size_iff, Bool.not_eq_true]

theorem sorted_names_of_perm (c : Configuration Float) (entries : List (String × String))
    (rearranged : entries.Perm c.variables) :
    { c with «variables» := entries }.sortedNames = c.sortedNames := by
  refine List.Perm.eq_of_pairwise (fun a b _ _ => String.le_antisymm) (sorted_names_ordered _)
    (sorted_names_ordered c) ?_
  exact ((sorted_names_perm _).trans (rearranged.map _)).trans c.sorted_names_perm.symm

end Configuration

variable [UrlReader]

namespace Requirement

def Broken (c : Configuration Float) : Requirement → Prop
  | viewportWidth => ¬ (c.viewport.width.isFinite ∧ 0 ≤ c.viewport.width)
  | viewportHeight => ¬ (c.viewport.height.isFinite ∧ 0 ≤ c.viewport.height)
  | elementWidth => ¬ (c.element.width.isFinite ∧ 0 ≤ c.element.width)
  | elementHeight => ¬ (c.element.height.isFinite ∧ 0 ≤ c.element.height)
  | fontSize => ¬ (c.fonts.size.isFinite ∧ 0 < c.fonts.size)
  | rootFontSize => ¬ (c.fonts.root.isFinite ∧ 0 < c.fonts.root)
  | baseUrl => ∃ base, c.urls.base = some base ∧ ¬ ∃ url, UrlReader.parse base = .ok url
  | named name => name ∈ c.variables.map (·.1) ∧ ∀ x ∈ name.toList, Text.isBlank x = true

def isMet (c : Configuration Float) : Requirement → Bool
  | viewportWidth => Configuration.isSide c.viewport.width
  | viewportHeight => Configuration.isSide c.viewport.height
  | elementWidth => Configuration.isSide c.element.width
  | elementHeight => Configuration.isSide c.element.height
  | fontSize => Configuration.isFontSize c.fonts.size
  | rootFontSize => Configuration.isFontSize c.fonts.root
  | baseUrl => c.urls.base.all Configuration.isAbsoluteUrl
  | named name => Configuration.isNamed name

end Requirement

namespace Configuration

open Requirement

theorem absolute_iff (s : String) : isAbsoluteUrl s = true ↔ ∃ url, UrlReader.parse s = .ok url := by
  rw [isAbsoluteUrl]
  cases UrlReader.parse s <;> simp [Except.isOk, Except.toBool]

theorem issues_checked (c : Configuration Float) :
    c.issues = c.requirements.flatMap fun r => check r.field (r.isMet c) r.message := by
  have base : urlIssues c.urls = check baseUrl.field (baseUrl.isMet c) baseUrl.message := by
    rw [urlIssues, Requirement.isMet]
    cases c.urls.base <;> rfl
  rw [requirements, List.flatMap_append, List.flatMap_map, issues, base]
  simp only [sizeIssues, fontIssues, List.flatMap_cons, List.flatMap_nil, List.append_nil, List.append_assoc]
  rfl

theorem issues_of_requirements (c : Configuration Float) :
    c.issues = (c.requirements.filter fun r => !r.isMet c).map Requirement.issue := by
  rw [issues_checked]
  induction c.requirements with
  | nil => rfl
  | cons r rs ih =>
      rw [List.flatMap_cons, ih]
      cases met : r.isMet c with
      | false => simp [check, met, Requirement.issue]
      | true => simp [check, met]

theorem broken_iff (c : Configuration Float) (r : Requirement) :
    r.Broken c ↔ r ∈ c.requirements ∧ r.isMet c = false := by
  rw [mem_requirements]
  cases r with
  | named name => simp [Requirement.Broken, Requirement.isMet]
  | baseUrl =>
      simp only [Requirement.Broken, Requirement.isMet, ← absolute_iff]
      cases c.urls.base <;> simp
  | _ => simp [Requirement.Broken, Requirement.isMet]

theorem issues_nil_iff (c : Configuration Float) : c.issues = [] ↔ ∀ r : Requirement, ¬ r.Broken c := by
  rw [issues_of_requirements, List.map_eq_nil_iff, List.filter_eq_nil_iff]
  refine forall_congr' fun r => ?_
  rw [broken_iff, not_and, Bool.not_eq_true', Bool.not_eq_false]

theorem issues_follow_requirements (c : Configuration Float) (distinct : (c.variables.map (·.1)).Nodup) :
    ∃ broken : List Requirement, c.issues = broken.map issue ∧ (∀ r, r ∈ broken ↔ r.Broken c) ∧
      broken.Pairwise Precedes ∧ c.issues.Nodup := by
  have ordered := (c.requirements_in_order distinct).filter fun r => !r.isMet c
  refine ⟨_, c.issues_of_requirements, fun r => ?_, ordered, ?_⟩
  · rw [broken_iff, List.mem_filter, Bool.not_eq_true']
  · rw [issues_of_requirements, List.Nodup, List.pairwise_map]
    exact ordered.imp fun before => precedes_unequal _ _ before

theorem issues_of_perm (c : Configuration Float) (entries : List (String × String))
    (rearranged : entries.Perm c.variables) : { c with «variables» := entries }.issues = c.issues := by
  have names := sorted_names_of_perm c entries rearranged
  rw [sortedNames, sortedNames] at names
  simp only [issues, variableIssues, names]

end Configuration

end StyleCalc
