import Phrasebook.Proofs.Render.Line

namespace Phrasebook

/-- What an item shows next. -/
inductive ItemPart where
  | words (s : String)
  | list (nested : Bool) (s : String)

namespace ItemPart

/-- The text of the part by itself. -/
@[simp] def text : ItemPart → String
  | .words s => s
  | .list _ s => s

/-- The text of an item that begins with `out`; a list begins on a line of its own, unless it is
nested and `deep` is off. -/
def lay (deep : Bool) (out : String) : List ItemPart → String
  | [] => out
  | .words s :: parts => lay deep (out ++ s) parts
  | .list nested s :: parts =>
    lay deep ((if nested && !deep then out else Line.start out) ++ s) parts

/-- Whether nothing is written before the item ends or a list directly in it begins. -/
def silent : List ItemPart → Bool
  | [] => true
  | .words s :: parts => s == "" && silent parts
  | .list nested s :: parts => !nested || s == "" && silent parts

/-- Whether silence follows wherever a nested list meets an open line, `out` being the text of the
item so far. -/
def settled (out : String) : List ItemPart → Bool
  | [] => true
  | .words s :: parts => settled (out ++ s) parts
  | .list false s :: parts => settled (Line.start out ++ s) parts
  | .list true s :: parts =>
    (!Line.isOpen out || s == "" && silent parts) && settled (out ++ s) parts

/-- Whether the part is a list that texts separate from the item. -/
def isNested : ItemPart → Bool
  | .list true _ => true
  | _ => false

theorem settled_of_not_nested (out : String) {parts : List ItemPart}
    (h : parts.any isNested = false) : settled out parts = true := by
  induction parts generalizing out with
  | nil => rfl
  | cons part parts ih =>
    rw [List.any_cons, Bool.or_eq_false_iff] at h
    obtain ⟨hpart, hparts⟩ := h
    cases part with
    | words s => exact ih _ hparts
    | list nested s =>
      cases nested with
      | false => exact ih _ hparts
      | true => simp [isNested] at hpart

theorem lay_append (deep : Bool) (out : String) (ps qs : List ItemPart) :
    lay deep out (ps ++ qs) = lay deep (lay deep out ps) qs := by
  induction ps generalizing out with
  | nil => rfl
  | cons p ps ih => cases p <;> exact ih _

/-- The text of an item where a list in it begins. -/
def listStart (deep nested : Bool) (out : String) : String :=
  if nested && !deep then out else Line.start out

theorem lay_list (deep nested : Bool) (out s : String) (parts : List ItemPart) :
    lay deep out (.list nested s :: parts) = lay deep (listStart deep nested out ++ s) parts := rfl

theorem listStart_eq_empty_iff (deep nested : Bool) (out : String) :
    listStart deep nested out = "" ↔ out = "" := by
  rw [listStart]
  split
  · rfl
  · exact Line.start_eq_empty_iff out

theorem prefix_listStart (deep nested : Bool) (out : String) :
    out.toList <+: (listStart deep nested out).toList := by
  rw [listStart, Line.start_eq]
  split
  · exact List.prefix_rfl
  · split <;> simp

/-- An item only grows. -/
theorem prefix_lay (deep : Bool) (out : String) (parts : List ItemPart) :
    out.toList <+: (lay deep out parts).toList := by
  induction parts generalizing out with
  | nil => exact List.prefix_rfl
  | cons part parts ih =>
    cases part with
    | words s =>
      refine List.IsPrefix.trans ?_ (ih (out ++ s))
      simp
    | list nested s =>
      rw [lay_list]
      refine List.IsPrefix.trans ?_ (ih _)
      rw [String.toList_append]
      exact (prefix_listStart deep nested out).trans (List.prefix_append _ _)

/-- Breaks come only after something, so an item is empty just if its parts are. -/
theorem lay_eq_empty_iff (deep : Bool) (out : String) (parts : List ItemPart) :
    lay deep out parts = "" ↔ out = "" ∧ String.join (parts.map text) = "" := by
  induction parts generalizing out with
  | nil => simp [lay]
  | cons part parts ih =>
    cases part with
    | words s => simp [lay, ih, and_assoc]
    | list nested s => simp [lay_list, ih, listStart_eq_empty_iff, and_assoc]

/-- Two rows of parts of the same kinds, the texts of the second trailing those of the first. -/
inductive Trail : Bool → List ItemPart → List ItemPart → Prop
  | nil : Trail true [] []
  | words {a b : Bool} {s v : String} {ps vs : List ItemPart} (h : Line.Trails a s v)
      (t : Trail b ps vs) : Trail (a && b) (.words s :: ps) (.words v :: vs)
  | list {a b : Bool} (nested : Bool) {s v : String} {ps vs : List ItemPart}
      (h : Line.Trails a s v) (t : Trail b ps vs) :
      Trail (a && b) (.list nested s :: ps) (.list nested v :: vs)

namespace Trail

variable {a b c : Bool} {p r : String} {ps qs vs ws : List ItemPart}

theorem single_words {s v : String} (h : Line.Trails a s v) :
    Trail a [.words s] [.words v] := by
  simpa using Trail.words h .nil

theorem single_list (nested : Bool) {s v : String} (h : Line.Trails a s v) :
    Trail a [.list nested s] [.list nested v] := by
  simpa using Trail.list nested h .nil

theorem append (h : Trail a ps vs) (k : Trail b qs ws) :
    Trail (a && b) (ps ++ qs) (vs ++ ws) := by
  induction h with
  | nil => simpa using k
  | words h _ ih =>
    rw [Bool.and_assoc]
    exact .words h ih
  | list nested h _ ih =>
    rw [Bool.and_assoc]
    exact .list nested h ih

/-- The texts of the parts one after the other. -/
theorem join (h : Trail a ps vs) :
    Line.Trails a (String.join (ps.map text)) (String.join (vs.map text)) := by
  induction h with
  | nil => exact .same _
  | words h _ ih => simpa using h.append ih
  | list nested h _ ih => simpa using h.append ih

end Trail

/-- The two layouts of rows of parts give one text of an item trailing the other: `level` where
both go on from the same place, `ahead` where the second has already ended the open line of the
first. -/
structure Alike (b : Bool) (ps vs : List ItemPart) : Prop where
  level {c : Bool} {p r : String} : Line.Trails c p r →
    Line.Trails (c && b && settled p ps) (Line.finish (lay false p ps)) (Line.finish (lay true r vs))
  ahead {c : Bool} {p r : String} : Line.Trails c p r → Line.isOpen p = true →
    Line.Trails (c && b && (silent ps && settled p ps)) (Line.finish (lay false p ps))
      (Line.finish (lay true (r ++ "\n") vs))

/-- Words that are written while the second text is ahead keep the texts apart; empty ones change
nothing. -/
theorem Alike.ahead_words {a b c : Bool} {p r s v : String} {ps vs : List ItemPart}
    (t : Alike b ps vs) (h : Line.Trails c p r) (ho : Line.isOpen p = true)
    (k : Line.Trails a s v) :
    Line.Trails (c && (a && b) && (s == "" && silent ps && settled (p ++ s) ps))
      (Line.finish (lay false (p ++ s) ps)) (Line.finish (lay true (r ++ "\n" ++ v) vs)) := by
  by_cases hs : s = ""
  · subst hs
    obtain ⟨rfl, rfl⟩ := k.eq_true_of_empty
    simpa using t.ahead h ho
  · have apart := h.append_newline (Line.ne_empty_of_isOpen ho) k hs
    simpa [beq_false_of_ne hs] using t.level apart

theorem Trail.alike {b : Bool} {ps vs : List ItemPart} (t : Trail b ps vs) : Alike b ps vs := by
  induction t with
  | nil =>
    refine ⟨fun h => ?_, fun h ho => ?_⟩
    · simpa [lay, settled] using h.finish
    · simpa [lay, settled, silent, Line.finish_of_isOpen ho] using h.append (.same "\n")
  | words k t ih =>
    refine ⟨fun h => ?_, fun h ho => ?_⟩
    · simpa [lay, settled, Bool.and_assoc] using ih.level (h.append k)
    · exact ih.ahead_words h ho k
  | list nested k t ih =>
    cases nested with
    | false =>
      refine ⟨fun h => ?_, fun h ho => ?_⟩
      · simpa [lay, settled, Bool.and_assoc] using ih.level (h.start.append k)
      · have ended := h.append (.same "\n")
        simpa [lay, settled, silent, Line.start_eq, ho, Bool.and_assoc] using
          ih.level (ended.append k)
    | true =>
      refine ⟨fun {c p r} h => ?_, fun {c p r} h ho => ?_⟩
      · cases ho : Line.isOpen p with
        | false =>
          have closed := h.isOpen_eq.symm.trans ho
          simpa [lay, settled, Line.start_eq, ho, closed, Bool.and_assoc] using
            ih.level (h.append k)
        | true =>
          have late := ih.ahead_words h ho k
          have hr := h.isOpen_eq.symm.trans ho
          simpa [lay, settled, Line.start_eq, ho, hr] using late
      · have late := ih.ahead_words h ho k
        simpa [lay, settled, silent, Line.start_eq, ho] using late

end ItemPart

end Phrasebook
