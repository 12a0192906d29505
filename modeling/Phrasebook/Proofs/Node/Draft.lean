import Phrasebook.Node.Draft
import Phrasebook.Proofs.Except

namespace Phrasebook

open Json

theorem Tag.among_some {τ : Type} {read : Content → Except Cause τ} {tag : τ}
    {members : List (String × Content)} (h : key ∉ members.map (·.1)) :
    among read (some tag) members = .ok tag := by
  induction members with
  | nil => rfl
  | cons p members ih =>
    obtain ⟨k, v⟩ := p
    rw [List.map_cons, List.mem_cons, not_or] at h
    rw [among, if_neg (Ne.symm h.1)]
    exact ih h.2

theorem Tag.ofName?_name (tag : Tag) : ofName? tag.name = some tag := by
  cases tag with
  | list kind => cases kind <;> rfl
  | _ => rfl

theorem Styles.ofContent_toContent (styles : Styles) : ofContent styles.toContent = .ok styles :=
  rfl

theorem Draft.set_styles {ν : Type} (d : Draft ν) (styles : Styles) :
    d.set "styles" styles.toContent = .ok { d with styles := some styles } := by
  show (Styles.ofContent styles.toContent >>= fun s => .ok { d with styles := some s }) = _
  rw [Styles.ofContent_toContent, ok_bind]

end Phrasebook
