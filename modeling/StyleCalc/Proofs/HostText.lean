import StyleCalc.Proofs.Quoting
import StyleCalc.Url.Host

set_option autoImplicit false

namespace StyleCalc

namespace Host

theorem intercalate_confined (quote backslash : Prop) (separator : String) (parts : List String)
    (between : Confined quote backslash separator.toList)
    (each : ∀ part ∈ parts, Confined quote backslash part.toList) :
    Confined quote backslash (separator.intercalate parts).toList := by
  induction parts with
  | nil => exact nofun
  | cons part parts ih =>
      obtain ⟨first, rest⟩ := List.forall_mem_cons.mp each
      cases parts with
      | nil => exact first
      | cons next others =>
          rw [String.intercalate_cons_cons]
          simpa [first, between] using ih rest

theorem decimal_confined (n : Nat) : Confined False False (toString n).toList := by
  rw [Nat.toString_eq_repr, Nat.repr_eq_ofList_toDigits, String.toList_ofList]
  exact digits_confined _ fun c member => Nat.isDigit_of_mem_toDigits (by decide) (by decide) member

theorem ipv4_confined (address : Nat) : Confined False False (ipv4Text address).toList := by
  refine intercalate_confined False False "." _ (by simp) fun part member => ?_
  obtain ⟨unit, _, rfl⟩ := List.mem_map.mp member
  exact decimal_confined _

theorem ipv6_confined (pieces : List Nat) : Confined False False (ipv6Text pieces).toList := by
  have joined (ps : List Nat) : Confined False False (":".intercalate (ps.map hexText)).toList := by
    refine intercalate_confined False False ":" _ (by simp) fun part member => ?_
    obtain ⟨piece, _, rfl⟩ := List.mem_map.mp member
    rw [hexText, String.toList_ofList]
    exact Url.hex_digits_confined false piece
  unfold ipv6Text
  dsimp only
  split
  · simpa using joined pieces
  · have front := joined (pieces.take (longestZeros pieces).1)
    have back := joined (pieces.drop ((longestZeros pieces).1 + (longestZeros pieces).2))
    simpa using And.intro front back

theorem brackets_confined (s : List Char) (host : Host) (read : ofBrackets s = .ok host) :
    Confined False False host.text.toList := by
  unfold ofBrackets at read
  split at read
  · split at read
    · cases read
      exact ipv6_confined _
    · cases read
  · cases read

theorem plain_confined (quote : Prop) (s : List Char) (host : Host) (quotes : '"' ∈ s → quote)
    (read : ofPlain s = .ok host) : Confined quote False host.text.toList := by
  unfold ofPlain at read
  split at read
  · exact (brackets_confined _ host read).weaken _ False.elim id
  · split at read
    · cases read
    · rename_i allowed
      cases read
      refine Url.encode_confined Url.isControl s (fun _ control => control) (fun given _ => quotes given) ?_
      intro given _
      exact allowed (List.any_eq_true.mpr ⟨_, given, rfl⟩)

end Host

variable [DomainMapping]

namespace Url

/-- A text with a double quote in it, or with a name that is mapped to a domain with one. -/
def BringsQuote (s : List Char) : Prop :=
  '"' ∈ s ∨ ∃ name, name <:+: s ∧
    ∃ domain, DomainMapping.toAscii? (decode name) = some domain ∧ '"' ∈ domain

theorem brings_quote_within (s t : List Char) (within : s <:+: t) (brings : BringsQuote s) : BringsQuote t := by
  rcases brings with member | ⟨name, part, mapped⟩
  · exact .inl (within.subset member)
  · exact .inr ⟨name, part.trans within, mapped⟩

end Url

namespace Host

theorem mapped_confined [LawfulDomainMapping] (quote : Prop) (bytes : List UInt8) (domain : List Char)
    (mapped : DomainMapping.toAscii? bytes = some domain) (quotes : '"' ∈ domain → quote)
    (allowed : ¬ domain.any forbiddenInDomain) : Confined quote False domain := by
  intro c member
  have fine : ¬ forbiddenInDomain c := fun forbidden => allowed (List.any_eq_true.mpr ⟨c, member, forbidden⟩)
  have low := LawfulDomainMapping.ascii bytes domain mapped c member
  refine ⟨?_, fun same => quotes (same ▸ member), fun same => fine (same ▸ rfl)⟩
  simp only [forbiddenInDomain, Bool.or_eq_true, decide_eq_true_eq, not_or] at fine
  omega

theorem domain_confined [LawfulDomainMapping] (quote : Prop) (s : List Char) (host : Host)
    (quotes : Url.BringsQuote s → quote) (read : ofDomain s = .ok host) : Confined quote False host.text.toList := by
  unfold ofDomain at read
  split at read
  · exact (brackets_confined _ host read).weaken _ False.elim id
  · split at read
    · cases read
    · rename_i domain mapped
      split at read
      · cases read
      · rename_i allowed
        split at read
        · cases read
        · split at read
          · split at read
            · cases read
              exact (ipv4_confined _).weaken _ False.elim id
            · cases read
          · cases read
            rw [text, String.toList_ofList]
            exact mapped_confined quote _ domain mapped
              (fun member => quotes (.inr ⟨s, List.infix_refl s, domain, mapped, member⟩)) allowed

end Host

end StyleCalc
