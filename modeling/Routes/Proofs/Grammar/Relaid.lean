import Routes.Proofs.Grammar.Alike
import Routes.Proofs.Token.Resume
/-!
The same tokens at other places. Of a place the grammar sees no more than whether two neighbours
touch, and a change of place that moves all tokens alike keeps that.
-/
namespace Routes

namespace Grammar

/-- The same tokens at other places, where the same neighbours touch. -/
inductive IsRelaid : List Token → List Token → Prop
  | nil : IsRelaid [] []
  | cons {t u ts us} : t.kind = u.kind → t.text = u.text →
      (∀ t' ∈ ts.head?, ∀ u' ∈ us.head?, (Adjacent t t' ↔ Adjacent u u')) →
      IsRelaid ts us → IsRelaid (t :: ts) (u :: us)

variable {ts us vs vs' : List Token} {l l' : Token}

theorem IsRelaid.alike (h : IsRelaid ts us)
    (hhead : ∀ t ∈ ts.head?, ∀ u ∈ us.head?, (Adjacent l t ↔ Adjacent l' u)) :
    Alike l l' ts us := by
  induction h generalizing l l' with
  | nil => exact .nil
  | cons hk htext hnext _ ih => exact .same hk htext (hhead _ rfl _ rfl) (ih hnext)

theorem IsRelaid.append_left (us : List Token) (h : IsRelaid vs vs')
    (hjoint : ∀ l ∈ us.getLast?, ∀ v ∈ vs.head?, ∀ v' ∈ vs'.head?,
      (Adjacent l v ↔ Adjacent l v')) : IsRelaid (us ++ vs) (us ++ vs') := by
  induction us with
  | nil => exact h
  | cons u us ih =>
    cases us with
    | nil => exact .cons rfl rfl (hjoint u rfl) h
    | cons w us =>
      refine .cons rfl rfl (fun t ht u hu => ?_) (ih fun l hl => hjoint l ?_)
      · cases ht
        cases hu
        rfl
      · rwa [List.getLast?_cons_cons]

end Grammar

namespace Token
open Grammar (Adjacent IsRelaid)
variable {ts us : List Token} {i j : Nat}

theorem isRelaid_of_isShift (h : List.Forall₂ (IsShift i j) ts us) : IsRelaid ts us := by
  induction h with
  | nil => exact .nil
  | @cons t u ts us htu h ih =>
    refine .cons htu.kind htu.text (fun t' ht' u' hu' => ?_) ih
    cases h with
    | nil => cases ht'
    | cons htu' _ =>
      cases ht'
      cases hu'
      have hoffset := htu.offset
      have hoffset' := htu'.offset
      rw [Adjacent, Adjacent, endOffset, endOffset, htu.size]
      omega

end Token
end Routes
