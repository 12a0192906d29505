import Phrasebook.Proofs.Document.Compiled

namespace Phrasebook

theorem Repair.warning_injective (key locale : String) :
    Function.Injective (Repair.warning key locale) := by
  intro repair repair' h
  cases repair <;> cases repair' <;> first | rfl | cases h

theorem Repair.warning_cases (key locale : String) (repair : Repair) :
    repair.warning key locale = .unknownKind key locale ∨
      repair.warning key locale = .nonItemInList key locale := by
  cases repair with
  | droppedUnknown => exact .inl rfl
  | wrappedInItem => exact .inr rfl

namespace Document

theorem Placed.Before.not_same {e e' : Placed} (h : e.Before e') :
    ¬ (e.key = e'.key ∧ e.locale = e'.locale) := by
  intro hsame
  obtain hkey | ⟨-, hlocale⟩ := h
  · rw [hsame.1] at hkey
    exact String.lt_irrefl _ hkey
  · rw [hsame.2] at hlocale
    exact String.lt_irrefl _ hlocale

/-- Entries at other places leave no warning of a repair here. -/
theorem count_repair_warning_elsewhere {r : Roster} {es : List Placed} {key locale : String}
    (h : ∀ e ∈ es, ¬ (e.key = key ∧ e.locale = locale)) (repair : Repair) :
    (es.flatMap (Placed.notes r)).count (repair.warning key locale) = 0 := by
  rw [List.count_eq_zero]
  intro hmem
  obtain ⟨e, he, hnote⟩ := List.mem_flatMap.mp hmem
  obtain ⟨hkey, hlocale, -⟩ := Placed.of_warning_mem_notes hnote
  exact h e he ⟨hkey, hlocale⟩

theorem count_repair_warning {d : Document} {c : Catalog} {warnings : List Warning}
    (h : d.toCatalog = .ok (c, warnings)) {key locale : String} {nodes : List AuthoredNode}
    {compiled : List TemplateNode} {repairs : List Repair}
    (hnodes : d.find? key locale = some nodes) (hdeclared : c.roster.declares locale = true)
    (hcompile : AuthoredNode.compileAll nodes = .ok (compiled, repairs)) (repair : Repair) :
    warnings.count (repair.warning key locale) = repairs.count repair := by
  obtain ⟨r, -, -, rfl, rfl⟩ := toCatalog_eq_ok_iff.mp h
  rw [roster_built] at hdeclared
  have hmem : (⟨key, locale, nodes⟩ : Placed) ∈ d.placed := mem_placed.mpr hnodes
  obtain ⟨before, after, hplaced⟩ := List.append_of_mem hmem
  have hsorted := d.pairwise_placed
  rw [hplaced, List.pairwise_append, List.pairwise_cons] at hsorted
  obtain ⟨-, ⟨hlater, -⟩, hearlier⟩ := hsorted
  have hbefore : (before.flatMap (Placed.notes r)).count (repair.warning key locale) = 0 := by
    apply count_repair_warning_elsewhere
    intro e he
    exact (hearlier e he _ List.mem_cons_self).not_same
  have hafter : (after.flatMap (Placed.notes r)).count (repair.warning key locale) = 0 := by
    apply count_repair_warning_elsewhere
    intro e he hsame
    exact (hlater e he).not_same ⟨hsame.1.symm, hsame.2.symm⟩
  have hlint : (d.built r).lint.count (repair.warning key locale) = 0 :=
    List.count_eq_zero.mpr (Catalog.warning_not_mem_lint _ key locale repair)
  have hhere : (Placed.notes r ⟨key, locale, nodes⟩).count (repair.warning key locale) =
      repairs.count repair := by
    rw [Placed.notes, if_pos hdeclared, hcompile]
    exact List.count_map_of_injective _ _ (Repair.warning_injective key locale) repair
  rw [List.count_append, hlint, hplaced, List.flatMap_append, List.flatMap_cons,
    List.count_append, List.count_append, hbefore, hafter, hhere]
  omega

theorem find?_toCatalog {d : Document} {c : Catalog} {warnings : List Warning}
    (h : d.toCatalog = .ok (c, warnings)) {key locale : String} {nodes : List AuthoredNode}
    {compiled : List TemplateNode} {repairs : List Repair}
    (hnodes : d.find? key locale = some nodes) (hdeclared : c.roster.declares locale = true)
    (hcompile : AuthoredNode.compileAll nodes = .ok (compiled, repairs)) :
    c.find? key locale = some (.template compiled) := by
  obtain ⟨r, -, -, rfl, -⟩ := toCatalog_eq_ok_iff.mp h
  rw [roster_built] at hdeclared
  rw [find?_built, hnodes, Option.bind_some, Placed.entry?, if_pos hdeclared, hcompile]
  rfl

end Document

namespace AuthoredNode

/-- If the strings of an entry are templates, the entry is compiled to what its repaired nodes show,
and these need no repair. There is one warning for each node that is taken out and one for each that
is wrapped, all under the key and the locale code of the entry. What stays of the nodes is in the
repaired ones, in order, with one item more for each that is wrapped, and piece by piece in what is
compiled. -/
theorem compile_as_repaired {nodes : List AuthoredNode}
    (hstrings : ∀ s ∈ stringsAll nodes, ∃ template, Template.parse s = .ok template) :
    ∃ compiled, compileAll (repaired nodes) = .ok (compiled, []) ∧
      (∀ key locale (c : Catalog), c.roster.declares locale = true →
        ∃ warnings, Document.addEntry key locale nodes c =
            .ok (c.insert key locale (.template compiled), warnings) ∧
          warnings.count (.unknownKind key locale) = removed nodes ∧
          warnings.count (.nonItemInList key locale) = wrapped nodes ∧
          ∀ w ∈ warnings, w = .unknownKind key locale ∨ w = .nonItemInList key locale) ∧
      (∀ (d : Document) key locale c warnings, d.find? key locale = some nodes →
        d.toCatalog = .ok (c, warnings) → c.roster.declares locale = true →
        c.find? key locale = some (.template compiled) ∧
          warnings.count (.unknownKind key locale) = removed nodes ∧
          warnings.count (.nonItemInList key locale) = wrapped nodes) ∧
      MoreItems (wrapped nodes) (((walkAll nodes).filter fun node => !node.isUnknown).map bare)
        ((walkAll (repaired nodes)).map bare) ∧
      List.Forall₂ Shows ((walkAll (repaired nodes)).map bare) (TemplateNode.piecesAll compiled) ∧
      List.Forall₂ Shows (repaired nodes) compiled := by
  obtain ⟨⟨compiled, repairs⟩, hcompile⟩ := exists_compileAll_iff.mpr hstrings
  have haccounts := accounts_compileAll hcompile
  have hrepaired := compileAll_repaired hcompile
  have hshows := shows_compileAll hrepaired
  refine ⟨compiled, hrepaired, ?_, ?_, ?_, shows_piecesAll hshows, hshows⟩
  · intro key locale c hdeclared
    refine ⟨repairs.map (Repair.warning key locale), ?_, ?_, ?_, ?_⟩
    · rw [Document.addEntry, if_pos hdeclared, hcompile]
    · rw [← haccounts.dropped]
      exact List.count_map_of_injective _ _ (Repair.warning_injective key locale) .droppedUnknown
    · rw [← haccounts.wrapped]
      exact List.count_map_of_injective _ _ (Repair.warning_injective key locale) .wrappedInItem
    · intro w hw
      obtain ⟨repair, -, rfl⟩ := List.mem_map.mp hw
      exact Repair.warning_cases key locale repair
  · intro d key locale c warnings hnodes hcatalog hdeclared
    have hcount := Document.count_repair_warning hcatalog hnodes hdeclared hcompile
    refine ⟨Document.find?_toCatalog hcatalog hnodes hdeclared hcompile, ?_, ?_⟩
    · rw [← haccounts.dropped]
      exact hcount .droppedUnknown
    · rw [← haccounts.wrapped]
      exact hcount .wrappedInItem
  · rw [← map_bare_walkAll_known]
    exact moreItems_walkAll (knownAll nodes)

/-- Unknown types at every level, and lists with children that are no items. -/
def tangled : List AuthoredNode :=
  [.unknown,
    .list .unordered
      [.text "a" [.unknown, .text "b" [] {}] {}, .unknown,
        .item [.list .ordered [.text "c" [] {}]]]]

def tangledSheet : Document where
  locales := [{ code := "EN", name := "English", isDefault := true }]
  phrases := Dict.ofList [("p", Dict.ofList [("EN", tangled)])]

/-- What is left of the tangled nodes, compiled. -/
def straightened : List TemplateNode :=
  [.list .unordered
    [[.text ⟨[.literal "a"]⟩ [.text ⟨[.literal "b"]⟩ [] {}] {}],
      [.list .ordered [[.text ⟨[.literal "c"]⟩ [] {}]]]]]

theorem repaired_tangled : repaired tangled =
    [.list .unordered
      [.item [.text "a" [.text "b" [] {}] {}],
        .item [.list .ordered [.item [.text "c" [] {}]]]]] := rfl

theorem compileAll_repaired_tangled : compileAll (repaired tangled) = .ok (straightened, []) := by
  have ha : Template.parse "a" = .ok ⟨[.literal "a"]⟩ := toOption_eq_some_iff.mp (by decide +kernel)
  have hb : Template.parse "b" = .ok ⟨[.literal "b"]⟩ := toOption_eq_some_iff.mp (by decide +kernel)
  have hc : Template.parse "c" = .ok ⟨[.literal "c"]⟩ := toOption_eq_some_iff.mp (by decide +kernel)
  rw [repaired_tangled]
  simp only [compile, compileAll, compileItems, ha, hb, hc, ok_bind]
  rfl

theorem compile_as_repaired_tangled :
    (∀ s ∈ stringsAll tangled, ∃ template, Template.parse s = .ok template) ∧
    repaired tangled =
      [.list .unordered
        [.item [.text "a" [.text "b" [] {}] {}],
          .item [.list .ordered [.item [.text "c" [] {}]]]]] ∧
    TemplateNode.piecesAll straightened =
      [.list .unordered [], .item [], .text ⟨[.literal "a"]⟩ [] {}, .text ⟨[.literal "b"]⟩ [] {},
        .item [], .list .ordered [], .item [], .text ⟨[.literal "c"]⟩ [] {}] ∧
    compileAll (repaired tangled) = .ok (straightened, []) ∧
    List.Forall₂ Shows ((walkAll (repaired tangled)).map bare)
      (TemplateNode.piecesAll straightened) ∧
    ∃ c warnings, tangledSheet.toCatalog = .ok (c, warnings) ∧
      c.find? "p" "EN" = some (.template straightened) ∧
      warnings.count (.unknownKind "p" "EN") = 3 ∧
      warnings.count (.nonItemInList "p" "EN") = 2 := by
  have hstrings : ∀ s ∈ stringsAll tangled, ∃ template, Template.parse s = .ok template :=
    Template.firstFault_eq_none_iff.mp (by decide +kernel)
  obtain ⟨compiled, hrepaired, -, hdocument, -, hpieces, -⟩ := compile_as_repaired hstrings
  obtain rfl : compiled = straightened := by
    rw [compileAll_repaired_tangled] at hrepaired
    cases hrepaired
    rfl
  refine ⟨hstrings, repaired_tangled, rfl, hrepaired, hpieces, ?_⟩
  obtain ⟨⟨c, warnings⟩, hcatalog⟩ : ∃ result, tangledSheet.toCatalog = .ok result :=
    fault?_eq_none_iff.mp (by decide +kernel)
  have hdeclared : c.roster.declares "EN" = true := by
    obtain ⟨r, hroster, -, rfl, -⟩ := Document.toCatalog_eq_ok_iff.mp hcatalog
    cases hroster
    rw [Document.roster_built]
    decide
  exact ⟨c, warnings, hcatalog,
    hdocument tangledSheet "p" "EN" c warnings rfl hcatalog hdeclared⟩

end AuthoredNode

end Phrasebook
