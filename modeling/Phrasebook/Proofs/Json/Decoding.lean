import Phrasebook.Json.Buffer
import Phrasebook.Proofs.Json.Value

namespace Phrasebook.Json

variable {α β : Type}

namespace Content

def string? : Content → Option String
  | .string s => some s
  | _ => none

def bool? : Content → Option Bool
  | .bool b => some b
  | _ => none

def optional? (decode : Content → Option α) : Content → Option (Option α)
  | .null => some none
  | v => (decode v).map some

def list? (decode : Content → Option α) : Content → Option (List α)
  | .seq vs => vs.mapM decode
  | _ => none

def pairs? (decode : Content → Option α) : Content → Option (List (String × α))
  | .map ps => ps.mapM fun p => (decode p.2).map fun a => (p.1, a)
  | _ => none

end Content

namespace Reader

/-- Wherever a value can be read whole, `r` accepts it if `decode` does, gives what `decode` gives,
and goes on where the value ends. -/
def Decodes (r : Reader α) (decode : Content → Option α) : Prop :=
  ∀ ⦃depth : Nat⦄ ⦃cs : List Char⦄ ⦃v : Content⦄ ⦃rest : List Char⦄,
    content depth cs = .ok (v, rest) → (r depth cs).toOption = (decode v).map fun a => (a, rest)

theorem atValue_eq {read : Nat → List Char → Except Fault (α × List Char)} {depth : Nat}
    {cs tail : List Char} {c : Char} (hskip : skipBlanks cs = c :: tail) :
    atValue read depth cs = read depth (c :: tail) := by
  rw [atValue, hskip]

theorem Decodes.map {r : Reader α} {decode : Content → Option α} (h : r.Decodes decode)
    (f : α → β) : (r.map f).Decodes fun v => (decode v).map f := by
  intro depth cs v rest hv
  rw [Reader.map, toOption_bind, h hv]
  show _ = ((decode v).map f).map fun b => (b, rest)
  cases decode v <;> rfl

theorem stringAs_eq_none {expected : String} {depth : Nat} {cs tail : List Char} {c : Char}
    (hskip : skipBlanks cs = c :: tail) (hc : c ≠ '"') :
    (stringAs expected depth cs).toOption = none := by
  rw [stringAs, atValue_eq hskip]
  split
  · next heq => exact absurd (List.cons.inj heq).1 hc
  · rfl

theorem decodes_stringAs (expected : String) : (stringAs expected).Decodes Content.string? := by
  intro depth cs v rest hv
  cases spells_of_content hv with
  | string hskip hstring =>
    rw [stringAs, atValue_eq hskip]
    exact congrArg Except.toOption hstring
  | null hskip | yes hskip | no hskip | seq hskip | map hskip =>
    exact stringAs_eq_none hskip (by decide)
  | integer hskip hnumber | float hskip hnumber =>
    exact stringAs_eq_none hskip (ne_of_number hnumber (by decide) (by decide))

theorem decodes_string : string.Decodes Content.string? := decodes_stringAs _

theorem bool_eq_none {depth : Nat} {cs tail : List Char} {c : Char}
    (hskip : skipBlanks cs = c :: tail) (htrue : c ≠ 't') (hfalse : c ≠ 'f') :
    (bool depth cs).toOption = none := by
  rw [bool, atValue_eq hskip]
  split
  · next heq => exact absurd (List.cons.inj heq).1 htrue
  · next heq => exact absurd (List.cons.inj heq).1 hfalse
  · rfl

theorem decodes_bool : bool.Decodes Content.bool? := by
  intro depth cs v rest hv
  cases spells_of_content hv with
  | yes hskip hword =>
    rw [bool, atValue_eq hskip]
    simp only [hword, ok_bind]
    rfl
  | no hskip hword =>
    rw [bool, atValue_eq hskip]
    simp only [hword, ok_bind]
    rfl
  | null hskip | string hskip | seq hskip | map hskip =>
    exact bool_eq_none hskip (by decide) (by decide)
  | integer hskip hnumber | float hskip hnumber =>
    exact bool_eq_none hskip (ne_of_number hnumber (by decide) (by decide))
      (ne_of_number hnumber (by decide) (by decide))

theorem content_skipBlanks (depth : Nat) (cs : List Char) :
    content depth (skipBlanks cs) = content depth cs := by
  have hle := length_skipBlanks_le cs
  rw [content_eq_contentWith (2 * cs.length + 1) (by omega),
    content_eq_contentWith (2 * cs.length + 1) (Nat.le_refl _), contentWith, contentWith,
    skipBlanks_skipBlanks]

theorem optional_of_ne {r : Reader α} {decode : Content → Option α} (h : r.Decodes decode)
    {depth : Nat} {cs tail rest : List Char} {c : Char} {v : Content}
    (hv : content depth cs = .ok (v, rest)) (hskip : skipBlanks cs = c :: tail) (hc : c ≠ 'n') :
    (optional r depth cs).toOption = ((decode v).map some).map fun a => (a, rest) := by
  rw [← content_skipBlanks] at hv
  have hr := h hv
  rw [hskip] at hr
  rw [optional, hskip]
  split
  · next heq => exact absurd (List.cons.inj heq).1 hc
  · rw [toOption_bind, hr]
    cases decode v <;> rfl

theorem Decodes.optional {r : Reader α} {decode : Content → Option α} (h : r.Decodes decode) :
    (Reader.optional r).Decodes (Content.optional? decode) := by
  intro depth cs v rest hv
  cases spells_of_content hv with
  | null hskip hword =>
    rw [Reader.optional, hskip]
    simp only [hword, ok_bind]
    rfl
  | yes hskip | no hskip | string hskip | seq hskip | map hskip =>
    exact optional_of_ne h hv hskip (by decide)
  | integer hskip hnumber | float hskip hnumber =>
    exact optional_of_ne h hv hskip (ne_of_number hnumber (by decide) (by decide))

variable {element : Reader β} {decode : Content → Option β}

theorem toOption_elements (h : element.Decodes decode) (make : β → Except Cause α) {depth : Nat}
    {vs : List Content} {after rest : List Char} (hclose : closeList after = .ok rest) :
    ∀ (fuel : Nat) {first : Bool} {cs : List Char}, cs.length < fuel →
      values depth first cs = .ok (vs, after) →
      (elements element make depth fuel first cs).toOption =
        (vs.mapM fun v => (decode v).bind fun b => (make b).toOption).map fun as => (as, rest) := by
  induction vs with
  | nil =>
    intro fuel first cs hfuel hvalues
    obtain ⟨fuel, rfl⟩ := Nat.exists_eq_add_one_of_ne_zero (Nat.ne_zero_of_lt hfuel)
    have hnext := values_nil_iff.mp hvalues
    rw [elements, hnext, ok_bind]
    simp only [hclose, ok_bind]
    rfl
  | cons v vs ih =>
    intro fuel first cs hfuel hvalues
    obtain ⟨fuel, rfl⟩ := Nat.exists_eq_add_one_of_ne_zero (Nat.ne_zero_of_lt hfuel)
    obtain ⟨start, after', hnext, hvalue, hvalues⟩ := values_cons_iff.mp hvalues
    have hle := length_of_nextElement hnext
    have hlt := length_of_content hvalue
    have hrest := ih fuel (by omega) hvalues
    rw [elements, hnext, ok_bind, List.mapM_cons]
    simp only
    rw [toOption_bind, h hvalue]
    cases decode v with
    | none => rfl
    | some b =>
      simp only [Option.map_some, Option.bind_some]
      cases make b with
      | error cause => rfl
      | ok a =>
        simp only
        rw [toOption_bind, hrest]
        cases vs.mapM fun v => (decode v).bind fun b => (make b).toOption <;> rfl

theorem listOf_eq_none {make : β → Except Cause α} {depth : Nat} {cs tail : List Char} {c : Char}
    (hskip : skipBlanks cs = c :: tail) (hc : c ≠ '[') :
    (listOf element make depth cs).toOption = none := by
  rw [listOf, atValue_eq hskip]
  split
  · next heq => exact absurd (List.cons.inj heq).1 hc
  · rfl

theorem Decodes.listOf (h : element.Decodes decode) (make : β → Except Cause α) :
    (Reader.listOf element make).Decodes
      (Content.list? fun v => (decode v).bind fun b => (make b).toOption) := by
  intro depth cs v rest hv
  cases spells_of_content hv with
  | seq hskip hdescend hvalues hclose =>
    rw [Reader.listOf, atValue_eq hskip]
    simp only [hdescend, ok_bind]
    exact toOption_elements h make hclose _ (Nat.lt_succ_self _) hvalues
  | null hskip | yes hskip | no hskip | string hskip | map hskip =>
    exact listOf_eq_none hskip (by decide)
  | integer hskip hnumber | float hskip hnumber =>
    exact listOf_eq_none hskip (ne_of_number hnumber (by decide) (by decide))

theorem Decodes.list (h : element.Decodes decode) :
    (Reader.list element).Decodes (Content.list? decode) := by
  have hsome : (fun v => (decode v).bind fun b => (Except.ok b : Except Cause β).toOption) =
      decode := by
    funext v
    cases decode v <;> rfl
  have hlist := h.listOf .ok
  rw [hsome] at hlist
  exact hlist

theorem toOption_members (h : element.Decodes decode) {depth : Nat} {ps : List (String × Content)}
    {after rest : List Char} (hclose : closeObject after = .ok rest) :
    ∀ (fuel : Nat) {first : Bool} {cs : List Char}, cs.length < fuel →
      pairs depth first cs = .ok (ps, after) →
      (members element depth fuel first cs).toOption =
        (ps.mapM fun p => (decode p.2).map fun b => (p.1, b)).map fun bs => (bs, rest) := by
  induction ps with
  | nil =>
    intro fuel first cs hfuel hpairs
    obtain ⟨fuel, rfl⟩ := Nat.exists_eq_add_one_of_ne_zero (Nat.ne_zero_of_lt hfuel)
    have hnext := pairs_nil_iff.mp hpairs
    rw [members, hnext, ok_bind]
    simp only [hclose, ok_bind]
    rfl
  | cons p ps ih =>
    intro fuel first cs hfuel hpairs
    obtain ⟨key, v⟩ := p
    obtain ⟨fuel, rfl⟩ := Nat.exists_eq_add_one_of_ne_zero (Nat.ne_zero_of_lt hfuel)
    obtain ⟨start, afterKey, afterColon, after', hnext, hkey, hcolon, hvalue, hpairs⟩ :=
      pairs_cons_iff.mp hpairs
    have hle := length_of_nextMember hnext
    have hkeyLt := (string_eq_ok hkey).1
    have hcolonLt := length_of_skipBlanks (colon_eq_ok hcolon)
    have hlt := length_of_content hvalue
    have hrest := ih fuel (by omega) hpairs
    rw [members, hnext, ok_bind, List.mapM_cons]
    simp only [hkey, hcolon, ok_bind]
    rw [toOption_bind, h hvalue]
    cases decode v with
    | none => rfl
    | some b =>
      simp only [Option.map_some, Option.bind_some]
      rw [toOption_bind, hrest]
      cases ps.mapM fun p => (decode p.2).map fun b => (p.1, b) <;> rfl

theorem dict_eq_none {depth : Nat} {cs tail : List Char} {c : Char}
    (hskip : skipBlanks cs = c :: tail) (hc : c ≠ '\x7b') :
    (dict element depth cs).toOption = none := by
  rw [dict, atValue_eq hskip]
  split
  · next heq => exact absurd (List.cons.inj heq).1 hc
  · rfl

theorem Decodes.dict (h : element.Decodes decode) :
    (Reader.dict element).Decodes (Content.pairs? decode) := by
  intro depth cs v rest hv
  cases spells_of_content hv with
  | map hskip hdescend hpairs hclose =>
    rw [Reader.dict, atValue_eq hskip]
    simp only [hdescend, ok_bind]
    exact toOption_members h hclose _ (Nat.lt_succ_self _) hpairs
  | null hskip | yes hskip | no hskip | string hskip | seq hskip =>
    exact dict_eq_none hskip (by decide)
  | integer hskip hnumber | float hskip hnumber =>
    exact dict_eq_none hskip (ne_of_number hnumber (by decide) (by decide))

namespace Tagging

/-- Whether a value is a tag that is known. -/
def knows (t : Tagging) : Content → Bool
  | .string s => (t.check s).isOk
  | _ => false

/-- Whether there is one tag among members, and a known one. `tagged` says whether it has been
seen. -/
def tags (t : Tagging) (tagged : Bool) : List (String × Content) → Bool
  | [] => tagged
  | (key, v) :: ps =>
    if key = t.key then !tagged && t.knows v && t.tags true ps else t.tags tagged ps

/-- The value, if it is tagged. -/
def tagged? (t : Tagging) : Content → Option Content
  | .map ps => if t.tags false ps then some (.map ps) else none
  | .seq (v :: vs) => if t.knows v then some (.seq (v :: vs)) else none
  | _ => none

end Tagging

variable {t : Tagging}

theorem toOption_tag {depth : Nat} {cs rest : List Char} {v : Content}
    (hv : content depth cs = .ok (v, rest)) :
    (tag t depth cs).toOption =
      if t.knows v then v.string?.map fun s => (s, rest) else none := by
  rw [tag, toOption_bind, decodes_stringAs _ hv]
  cases v with
  | string s =>
    simp only [Content.string?, Option.map_some, Option.bind_some]
    split
    · next hcheck =>
      have hknows : t.knows (.string s) = false := by
        rw [Tagging.knows, hcheck]
        rfl
      rw [hknows]
      rfl
    · next hcheck =>
      have hknows : t.knows (.string s) = true := by
        rw [Tagging.knows, hcheck]
        rfl
      rw [hknows]
      rfl
  | _ => rfl

theorem string_of_knows {v : Content} (h : t.knows v = true) : ∃ s, v = .string s := by
  cases v with
  | string s => exact ⟨s, rfl⟩
  | _ => cases h

theorem toOption_taggedMembers {depth : Nat} {ps : List (String × Content)} {after : List Char} :
    ∀ (fuel : Nat) {first tagged : Bool} {cs : List Char}, cs.length < fuel →
      pairs depth first cs = .ok (ps, after) →
      (taggedMembers t depth fuel first tagged cs).toOption =
        if t.tags tagged ps then some (ps, after) else none := by
  induction ps with
  | nil =>
    intro fuel first tagged cs hfuel hpairs
    obtain ⟨fuel, rfl⟩ := Nat.exists_eq_add_one_of_ne_zero (Nat.ne_zero_of_lt hfuel)
    have hnext := pairs_nil_iff.mp hpairs
    rw [taggedMembers, hnext, ok_bind]
    cases tagged <;> rfl
  | cons p ps ih =>
    intro fuel first tagged cs hfuel hpairs
    obtain ⟨key, v⟩ := p
    obtain ⟨fuel, rfl⟩ := Nat.exists_eq_add_one_of_ne_zero (Nat.ne_zero_of_lt hfuel)
    obtain ⟨start, afterKey, afterColon, after', hnext, hkey, hcolon, hvalue, hothers⟩ :=
      pairs_cons_iff.mp hpairs
    have hle := length_of_nextMember hnext
    have hkeyLt := (string_eq_ok hkey).1
    have hcolonLt := length_of_skipBlanks (colon_eq_ok hcolon)
    have hlt := length_of_content hvalue
    rw [taggedMembers, hnext, ok_bind, Tagging.tags]
    simp only [hkey, hcolon, ok_bind]
    by_cases htag : key = t.key
    · rw [if_pos htag, if_pos htag]
      cases tagged with
      | true => rfl
      | false =>
        show (tag t depth afterColon >>= fun p =>
          taggedMembers t depth fuel false true p.2 >>= fun q =>
            pure ((key, Content.string p.1) :: q.1, q.2)).toOption = _
        rw [toOption_bind, toOption_tag hvalue]
        cases hknows : t.knows v with
        | false => rfl
        | true =>
          obtain ⟨s, rfl⟩ := string_of_knows hknows
          show (taggedMembers t depth fuel false true after' >>= fun q =>
            pure ((key, Content.string s) :: q.1, q.2)).toOption = _
          rw [toOption_bind, ih fuel (by omega) hothers]
          cases t.tags true ps <;> rfl
    · rw [if_neg htag, if_neg htag, hvalue, ok_bind]
      simp only
      rw [toOption_bind, ih fuel (by omega) hothers]
      cases t.tags tagged ps <;> rfl

theorem tagged_eq_none {depth : Nat} {cs tail : List Char} {c : Char}
    (hskip : skipBlanks cs = c :: tail) (hlist : c ≠ '[') (hobject : c ≠ '\x7b') :
    (tagged t depth cs).toOption = none := by
  rw [tagged, atValue_eq hskip]
  split
  · next heq => exact absurd (List.cons.inj heq).1 hlist
  · next heq => exact absurd (List.cons.inj heq).1 hobject
  · rfl

theorem toOption_tagged_seq {depth inner : Nat} {cs start after rest : List Char}
    {vs : List Content} (hskip : skipBlanks cs = '[' :: start)
    (hdescend : descend depth ('[' :: start) = .ok inner)
    (hvalues : values inner true start = .ok (vs, after)) (hclose : closeList after = .ok rest) :
    (tagged t depth cs).toOption = (t.tagged? (.seq vs)).map fun v => (v, rest) := by
  rw [tagged, atValue_eq hskip]
  simp only [hdescend, ok_bind]
  cases vs with
  | nil =>
    rw [values_nil_iff.mp hvalues, ok_bind]
    rfl
  | cons v vs =>
    obtain ⟨start', after', hnext, hvalue, hothers⟩ := values_cons_iff.mp hvalues
    rw [values] at hothers
    rw [hnext, ok_bind]
    simp only
    rw [toOption_bind, toOption_tag hvalue, Tagging.tagged?]
    cases hknows : t.knows v with
    | false => rfl
    | true =>
      obtain ⟨s, rfl⟩ := string_of_knows hknows
      simp only [if_true, Content.string?, Option.map_some, Option.bind_some, hothers, ok_bind,
        hclose]
      rfl

theorem decodes_tagged (t : Tagging) : (tagged t).Decodes t.tagged? := by
  intro depth cs v rest hv
  cases spells_of_content hv with
  | seq hskip hdescend hvalues hclose => exact toOption_tagged_seq hskip hdescend hvalues hclose
  | map hskip hdescend hpairs hclose =>
    rw [tagged, atValue_eq hskip]
    simp only [hdescend, ok_bind]
    rw [toOption_bind, toOption_taggedMembers _ (Nat.lt_succ_self _) hpairs, Tagging.tagged?]
    split
    · simp only [Option.bind_some, hclose, ok_bind]
      rfl
    · rfl
  | null hskip | yes hskip | no hskip | string hskip =>
    exact tagged_eq_none hskip (by decide) (by decide)
  | integer hskip hnumber | float hskip hnumber =>
    exact tagged_eq_none hskip (ne_of_number hnumber (by decide) (by decide))
      (ne_of_number hnumber (by decide) (by decide))

theorem run_eq_ok_iff {r : Reader α} {text : String} {a : α} :
    r.run text = .ok a ↔
      ∃ rest, r depthLimit text.toList = .ok (a, rest) ∧ skipBlanks rest = [] := by
  rw [run, mapError_eq_ok_iff, bind_eq_ok_iff]
  constructor
  · intro h
    obtain ⟨⟨a', rest⟩, hr, h⟩ := h
    simp only at h
    split at h
    · next hskip =>
      cases h
      exact ⟨rest, hr, hskip⟩
    · cases h
  · intro h
    obtain ⟨rest, hr, hskip⟩ := h
    refine ⟨(a, rest), hr, ?_⟩
    simp only [hskip]
    rfl

/-- Faults are placed at bytes of the text. -/
theorem exists_offset_of_run {r : Reader α} {text : String} {failure : Failure}
    (h : r.run text = .error failure) : ∃ offset ≤ Text.byteLength text.toList,
      failure.position = Text.Position.ofOffset text.toList offset := by
  obtain ⟨fault, -, rfl⟩ := mapError_eq_error_iff.mp h
  exact ⟨Text.byteLength text.toList - fault.left, Nat.sub_le _ _, rfl⟩

/-- A text that holds a value holds what the value stands for. -/
theorem Decodes.run_eq_ok_iff {r : Reader α} {decode : Content → Option α} (h : r.Decodes decode)
    {text : String} {v : Content} (hv : content.run text = .ok v) {a : α} :
    r.run text = .ok a ↔ decode v = some a := by
  obtain ⟨rest, hcontent, hend⟩ := Reader.run_eq_ok_iff.mp hv
  have hr := h hcontent
  rw [Reader.run_eq_ok_iff]
  constructor
  · intro hrun
    obtain ⟨rest', hok, -⟩ := hrun
    rw [hok] at hr
    obtain ⟨a', ha', heq⟩ := Option.map_eq_some_iff.mp hr.symm
    cases heq
    exact ha'
  · intro ha
    rw [ha] at hr
    exact ⟨rest, toOption_eq_some_iff.mp hr, hend⟩

end Reader

end Phrasebook.Json
