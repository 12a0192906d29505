import Mathlib.Data.List.Nodup
import Phrasebook.Proofs.Json.Passing

namespace Phrasebook.Json

/-- The text after the member of a name, its value included. -/
def afterMember (name : List Char) : Except Fault (List Char) := do
  skip (← colon (← skipString name))

/-- The names of the members of an object that is open, each as the text after its opening quote.
`fuel` bounds their number. -/
def namesFrom : Nat → Bool → List Char → List (List Char)
  | 0, _, _ => []
  | fuel + 1, first, cs =>
    match nextMember first cs with
    | .ok (true, name) => name :: (afterMember name).toOption.elim [] (namesFrom fuel false)
    | _ => []

/-- The names of the members of the object that a text begins with. -/
def names (cs : List Char) : List (List Char) :=
  match skipBlanks cs with
  | '\x7b' :: rest => namesFrom (rest.length + 1) true rest
  | _ => []

/-- The value of the member of a name, if it is called `key`. -/
def valueOf? (key : String) (name : List Char) : Option (List Char) := do
  let (k, rest) ← (string name).toOption
  if k = key then (colon rest).toOption else none

/-- The next element of a list that is open. -/
def element? (first : Bool) (cs : List Char) : Option (List Char) :=
  match nextElement first cs with
  | .ok (true, value) => some value
  | _ => none

/-- An element of a list that is open, by the number of elements before it. -/
def elementAt? : Nat → Bool → List Char → Option (List Char)
  | 0, first, cs => element? first cs
  | index + 1, first, cs => do
    let rest ← (skip (← element? first cs)).toOption
    elementAt? index false rest

/-- The values of a field in the record that a text begins with: those of the members of its name,
or the element at its place. -/
def Record.valuesOf {σ : Type} (r : Record σ) (name : String) (cs : List Char) :
    List (List Char) :=
  match skipBlanks cs with
  | '[' :: rest => (elementAt? ((r.fields.map (·.name)).idxOf name) true rest).toList
  | _ => (names cs).filterMap (valueOf? name)

variable {cs start rest name value : List Char} {first : Bool} {key : String}

theorem quote_suffix_of_nextMember (h : nextMember first cs = .ok (true, name)) :
    '"' :: name <:+ cs := by
  obtain ⟨-, hskip⟩ | ⟨-, tail, hskip, hskip'⟩ := nextMember_true h
  · exact hskip ▸ skipBlanks_suffix cs
  · exact (hskip' ▸ skipBlanks_suffix tail).trans (ends_of_skipBlanks hskip).1

theorem suffix_of_nextElement (h : nextElement first cs = .ok (true, value)) : value <:+ cs := by
  obtain ⟨-, c, tail, -, hskip, rfl⟩ | ⟨-, tail, hskip, rfl⟩ := nextElement_true h
  · exact hskip ▸ skipBlanks_suffix cs
  · exact (skipBlanks_suffix tail).trans (ends_of_skipBlanks hskip).1

theorem suffix_of_colon (h : colon cs = .ok rest) : rest <:+ cs :=
  (ends_of_skipBlanks (colon_eq_ok h)).1

theorem suffix_of_string (h : string cs = .ok (key, rest)) : rest <:+ cs :=
  (ends_of_cons (skipString_suffix (string_eq_ok h).2)).1

theorem suffix_of_afterMember (h : afterMember name = .ok rest) : rest <:+ name := by
  obtain ⟨afterName, hname, h⟩ := bind_eq_ok_iff.mp h
  obtain ⟨start, hcolon, h⟩ := bind_eq_ok_iff.mp h
  exact (skip_ends h).1.trans
    ((suffix_of_colon hcolon).trans (ends_of_cons (skipString_suffix hname)).1)

theorem quote_suffix_of_namesFrom {fuel : Nat} (h : name ∈ namesFrom fuel first cs) :
    '"' :: name <:+ cs := by
  induction fuel generalizing first cs with
  | zero => cases h
  | succ fuel ih =>
    rw [namesFrom] at h
    split at h
    · next found hnext =>
      have hfound := quote_suffix_of_nextMember hnext
      obtain rfl | hlater := List.mem_cons.mp h
      · exact hfound
      · cases hrest : afterMember found with
        | error fault =>
          rw [hrest] at hlater
          cases hlater
        | ok rest =>
          rw [hrest] at hlater
          exact (ih hlater).trans
            ((suffix_of_afterMember hrest).trans ((List.suffix_cons '"' found).trans hfound))
    · cases h

theorem quote_suffix_of_names (h : name ∈ names cs) : '"' :: name <:+ cs := by
  rw [names] at h
  split at h
  · next hskip => exact (quote_suffix_of_namesFrom h).trans (ends_of_skipBlanks hskip).1
  · cases h

theorem valueOf?_eq_some_iff : valueOf? key name = some value ↔
    ∃ rest, string name = .ok (key, rest) ∧ colon rest = .ok value := by
  constructor
  · intro h
    obtain ⟨⟨k, rest⟩, hname, hvalue⟩ := Option.bind_eq_some_iff.mp h
    simp only at hvalue
    split at hvalue
    · next heq =>
      rw [heq] at hname
      exact ⟨rest, toOption_eq_some_iff.mp hname, toOption_eq_some_iff.mp hvalue⟩
    · cases hvalue
  · intro h
    obtain ⟨rest, hname, hcolon⟩ := h
    refine Option.bind_eq_some_iff.mpr ⟨(key, rest), toOption_eq_some_iff.mpr hname, ?_⟩
    simp only [if_true]
    exact toOption_eq_some_iff.mpr hcolon

theorem element?_eq_some_iff :
    element? first cs = some value ↔ nextElement first cs = .ok (true, value) := by
  rw [element?]
  constructor
  · intro h
    split at h
    · next hnext =>
      cases h
      exact hnext
    · cases h
  · intro h
    rw [h]

theorem suffix_of_elementAt? {index : Nat} (h : elementAt? index first cs = some value) :
    value <:+ cs := by
  induction index generalizing first cs with
  | zero => exact suffix_of_nextElement (element?_eq_some_iff.mp h)
  | succ index ih =>
    obtain ⟨start, helement, h⟩ := Option.bind_eq_some_iff.mp h
    obtain ⟨rest, hskip, h⟩ := Option.bind_eq_some_iff.mp h
    exact (ih h).trans ((skip_ends (toOption_eq_some_iff.mp hskip)).1.trans
      (suffix_of_nextElement (element?_eq_some_iff.mp helement)))

theorem Record.suffix_of_valuesOf {σ : Type} {r : Record σ} {field : String}
    (h : value ∈ r.valuesOf field cs) : value <:+ cs := by
  rw [valuesOf] at h
  split at h
  · next hskip =>
    exact (suffix_of_elementAt? (Option.mem_toList.mp h)).trans (ends_of_skipBlanks hskip).1
  · obtain ⟨name, hname, hvalue⟩ := List.mem_filterMap.mp h
    obtain ⟨rest, hstring, hcolon⟩ := valueOf?_eq_some_iff.mp hvalue
    exact (suffix_of_colon hcolon).trans ((suffix_of_string hstring).trans
      ((List.suffix_cons '"' name).trans (quote_suffix_of_names hname)))

/-- The names after the one of a member that is passed. -/
theorem namesFrom_next {afterName afterColon after : List Char} (fuel : Nat)
    (hnext : nextMember first cs = .ok (true, start)) (hkey : string start = .ok (key, afterName))
    (hcolon : colon afterName = .ok afterColon) (hvalue : skip afterColon = .ok after) :
    namesFrom (fuel + 1) first cs = start :: namesFrom fuel false after := by
  have hafter : afterMember start = .ok after := by
    rw [afterMember, (string_eq_ok hkey).2, ok_bind, hcolon, ok_bind, hvalue]
  rw [namesFrom, hnext]
  simp only
  rw [hafter]
  rfl

/-- The elements after one that is passed. -/
theorem elementAt?_next {after : List Char} (index : Nat)
    (hnext : nextElement first cs = .ok (true, start)) (hvalue : skip start = .ok after) :
    elementAt? (index + 1) first cs = elementAt? index false after := by
  rw [elementAt?, element?_eq_some_iff.mpr hnext]
  show (skip start).toOption.bind (elementAt? index false) = _
  rw [hvalue]
  rfl

namespace Reader

variable {α : Type} {value : Reader α} {depth : Nat}

theorem exists_name_of_members (h : value.Skippable) (fuel : Nat) :
    ∀ {first : Bool} {cs rest : List Char} {ps : List (String × α)},
      members value depth fuel first cs = .ok (ps, rest) → ∀ p ∈ ps,
      ∃ name ∈ namesFrom fuel first cs, ∃ after, Json.string name = .ok (p.1, after) := by
  induction fuel with
  | zero =>
    intro first cs rest ps hread
    cases hread
  | succ fuel ih =>
    intro first cs rest ps hread p hp
    obtain ⟨⟨more, start⟩, hnext, hread⟩ := bind_eq_ok_iff.mp hread
    cases more with
    | false =>
      obtain ⟨after, hclose, hread⟩ := bind_eq_ok_iff.mp hread
      cases hread
      cases hp
    | true =>
      obtain ⟨⟨key, afterKey⟩, hkey, hread⟩ := bind_eq_ok_iff.mp hread
      obtain ⟨afterColon, hcolon, hread⟩ := bind_eq_ok_iff.mp hread
      obtain ⟨⟨v, after⟩, hvalue, hread⟩ := bind_eq_ok_iff.mp hread
      obtain ⟨⟨others, after'⟩, hothers, hread⟩ := bind_eq_ok_iff.mp hread
      cases hread
      rw [namesFrom_next fuel hnext hkey hcolon (h hvalue)]
      obtain rfl | hp := List.mem_cons.mp hp
      · exact ⟨start, List.mem_cons_self, afterKey, hkey⟩
      · obtain ⟨name, hname, hstring⟩ := ih hothers p hp
        exact ⟨name, List.mem_cons_of_mem _ hname, hstring⟩

/-- Every key of an object that is read is the name of a member of it. -/
theorem exists_name_of_dict {cs rest : List Char} {ps : List (String × α)} (h : value.Skippable)
    (hread : Reader.dict value depth cs = .ok (ps, rest)) {p : String × α} (hp : p ∈ ps) :
    ∃ name ∈ names cs, ∃ after, Json.string name = .ok (p.1, after) := by
  obtain ⟨c, tail, hskip, hread⟩ := atValue_eq_ok hread
  split at hread
  · next heq =>
    cases heq
    obtain ⟨inner, -, hread⟩ := bind_eq_ok_iff.mp hread
    rw [names, hskip]
    exact exists_name_of_members h _ hread p hp
  · cases hread

end Reader

variable {σ : Type}

/-- Whatever the field reads at one of the places keeps the property. -/
def Field.Keeps (field : Field σ) (P : σ → Prop) (places : List (List Char)) : Prop :=
  ∀ start ∈ places, ∀ ⦃depth : Nat⦄ ⦃change : σ → σ⦄ ⦃rest : List Char⦄,
    field.set depth start = .ok (change, rest) → ∀ value, P value → P (change value)

/-- The members after the first one have fewer values. -/
theorem Field.Keeps.tail {field : Field σ} {P : σ → Prop} {name : List Char}
    {names : List (List Char)}
    (h : field.Keeps P ((name :: names).filterMap (valueOf? field.name))) :
    field.Keeps P (names.filterMap (valueOf? field.name)) :=
  fun start hstart => h start (((List.sublist_cons_self name names).filterMap _).subset hstart)

theorem Field.keeps_map {α : Type} {read : Reader α} {f : α → σ → σ} {P : σ → Prop}
    {places : List (List Char)} (name : String) (required : Bool)
    (h : ∀ start ∈ places, ∀ ⦃depth : Nat⦄ ⦃a : α⦄ ⦃rest : List Char⦄,
      read depth start = .ok (a, rest) → ∀ value, P value → P (f a value)) :
    Field.Keeps ⟨name, required, read.map f⟩ P places := by
  intro start hstart depth change rest hset
  obtain ⟨⟨a, after⟩, hread, hset⟩ := bind_eq_ok_iff.mp hset
  cases hset
  exact h start hstart hread

theorem Field.keeps_map_of_forall {α : Type} {read : Reader α} {f : α → σ → σ} {P : σ → Prop}
    {places : List (List Char)} (name : String) (required : Bool)
    (h : ∀ a value, P value → P (f a value)) :
    Field.Keeps ⟨name, required, read.map f⟩ P places :=
  keeps_map name required fun _ _ _ a _ _ => h a

namespace Record

variable {r : Record σ} {P : σ → Prop} {depth : Nat}

theorem members_keep (hpass : ∀ field ∈ r.fields, field.set.Skippable) (fuel : Nat) :
    ∀ {first : Bool} {seen : List String} {value value' : σ} {cs rest : List Char},
      r.members depth fuel first seen value cs = .ok (value', rest) →
      (∀ field ∈ r.fields, field.Keeps P ((namesFrom fuel first cs).filterMap
        (valueOf? field.name))) → P value → P value' := by
  induction fuel with
  | zero =>
    intro first seen value value' cs rest hread
    cases hread
  | succ fuel ih =>
    intro first seen value value' cs rest hread hkeeps hvalue
    obtain ⟨⟨more, start⟩, hnext, hread⟩ := bind_eq_ok_iff.mp hread
    cases more with
    | false =>
      simp only at hread
      split at hread
      · cases hread
      · cases hread
        exact hvalue
    | true =>
      obtain ⟨⟨key, afterKey⟩, hkey, hread⟩ := bind_eq_ok_iff.mp hread
      simp only at hread
      split at hread
      · obtain ⟨afterColon, hcolon, hread⟩ := bind_eq_ok_iff.mp hread
        obtain ⟨after, hskip, hread⟩ := bind_eq_ok_iff.mp hread
        rw [namesFrom_next fuel hnext hkey hcolon hskip] at hkeeps
        exact ih hread (fun field hfield => (hkeeps field hfield).tail) hvalue
      · next field hfind =>
        split at hread
        · cases hread
        · obtain ⟨afterColon, hcolon, hread⟩ := bind_eq_ok_iff.mp hread
          obtain ⟨⟨change, after⟩, hset, hread⟩ := bind_eq_ok_iff.mp hread
          have hfield := List.mem_of_find?_eq_some hfind
          have hname : field.name = key := by simpa using List.find?_some hfind
          rw [namesFrom_next fuel hnext hkey hcolon (hpass field hfield hset)] at hkeeps
          have hplace : valueOf? field.name start = some afterColon :=
            valueOf?_eq_some_iff.mpr ⟨afterKey, hname ▸ hkey, hcolon⟩
          have hchange : P (change value) := hkeeps field hfield afterColon
            (List.mem_filterMap.mpr ⟨start, List.mem_cons_self, hplace⟩) hset value hvalue
          exact ih hread (fun field hfield => (hkeeps field hfield).tail) hchange

theorem elements_keep {fields : List (Field σ)}
    (hpass : ∀ field ∈ fields, field.set.Skippable) :
    ∀ {index : Nat} {first : Bool} {value value' : σ} {cs rest : List Char},
      first = (index == 0) → r.elements depth fields index value cs = .ok (value', rest) →
      (∀ i (field : Field σ), fields[i]? = some field →
        field.Keeps P (elementAt? i first cs).toList) → P value → P value' := by
  induction fields with
  | nil =>
    intro index first value value' cs rest _ hread _ hvalue
    cases hread
    exact hvalue
  | cons field fields ih =>
    intro index first value value' cs rest hfirst hread hkeeps hvalue
    obtain ⟨hfield, hfields⟩ := List.forall_mem_cons.mp hpass
    obtain ⟨⟨more, start⟩, hnext, hread⟩ := bind_eq_ok_iff.mp hread
    rw [← hfirst] at hnext
    cases more with
    | false =>
      simp only at hread
      split at hread
      · cases hread
      · -- The fields that are left find the list at its end as well.
        refine ih hfields rfl hread (fun i field _ place hplace => ?_) hvalue
        have hend := nextElement_of_end hnext
        cases i <;> simp [elementAt?, element?, hend] at hplace
    | true =>
      obtain ⟨⟨change, after⟩, hset, hread⟩ := bind_eq_ok_iff.mp hread
      have hplace : start ∈ (elementAt? 0 first cs).toList :=
        Option.mem_toList.mpr (element?_eq_some_iff.mpr hnext)
      have hchange : P (change value) := hkeeps 0 field rfl start hplace hset value hvalue
      refine ih hfields rfl hread (fun i field' hi => ?_) hchange
      have hnextPlace : elementAt? (i + 1) first cs = elementAt? i false after :=
        elementAt?_next i hnext (hfield hset)
      show field'.Keeps P (elementAt? i false after).toList
      rw [← hnextPlace]
      exact hkeeps (i + 1) field' hi

/-- What a record has at the start and every field keeps, read at its own values, the record has in
the end. -/
theorem reader_keeps (hpass : ∀ field ∈ r.fields, field.set.Skippable)
    (hnodup : (r.fields.map (·.name)).Nodup) {cs rest : List Char} {value : σ}
    (hread : r.reader depth cs = .ok (value, rest)) (hstart : P r.start)
    (hkeeps : ∀ field ∈ r.fields, field.Keeps P (r.valuesOf field.name cs)) : P value := by
  obtain ⟨c, tail, hskip, hread⟩ := Reader.atValue_eq_ok hread
  split at hread
  · next heq =>
    cases heq
    obtain ⟨inner, -, hread⟩ := bind_eq_ok_iff.mp hread
    obtain ⟨⟨value', after⟩, helements, hread⟩ := bind_eq_ok_iff.mp hread
    obtain ⟨rest', -, hread⟩ := bind_eq_ok_iff.mp hread
    cases hread
    refine elements_keep hpass rfl helements (fun i field hi => ?_) hstart
    have hfield := hkeeps field (List.mem_of_getElem? hi)
    rw [valuesOf, hskip] at hfield
    have hname : (r.fields.map (·.name))[i]? = some field.name := by
      rw [List.getElem?_map, hi]
      rfl
    obtain ⟨hlt, hget⟩ := List.getElem?_eq_some_iff.mp hname
    have hindex : (r.fields.map (·.name)).idxOf field.name = i := hget ▸ hnodup.idxOf_getElem i hlt
    rwa [hindex] at hfield
  · next heq =>
    cases heq
    obtain ⟨inner, -, hread⟩ := bind_eq_ok_iff.mp hread
    obtain ⟨⟨value', after⟩, hmembers, hread⟩ := bind_eq_ok_iff.mp hread
    obtain ⟨rest', -, hread⟩ := bind_eq_ok_iff.mp hread
    cases hread
    refine members_keep hpass _ hmembers (fun field hfield => ?_) hstart
    have hplaces := hkeeps field hfield
    rw [valuesOf, hskip, names, hskip] at hplaces
    exact hplaces
  · cases hread

end Record

end Phrasebook.Json
