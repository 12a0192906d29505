import Phrasebook.Proofs.Catalog.Coverage
import Phrasebook.Proofs.Command.Run
import Phrasebook.Proofs.Json.Pretty

namespace Phrasebook

open Json

namespace CoverageReport

/-- A report in JSON has one row, that of the locale, and the key is among its unresolved ones. -/
def ListsInJson (out locale key : String) : Prop :=
  ∃ (cov : Coverage) (total : Nat), cov.locale = locale ∧ key ∈ cov.unresolved ∧
    out = (Content.seq [.map [("locale", .string locale), ("translated", .integer cov.translated),
      ("via_fallback", .integer cov.viaFallback), ("total", .integer total),
      ("missing", .seq (cov.missing.map .string)),
      ("unresolved", .seq (cov.unresolved.map .string))]]).pretty ++ "\n"

/-- The lines of a text report for missing keys, some of them marked. -/
def keyLines (marked : String → Bool) (keys : List String) : String :=
  String.join (keys.map fun key =>
    "  - " ++ key ++ (if marked key then " (unresolved)" else "") ++ "\n")

/-- A report as a text has a line for each missing key of the locale below its table, and that of the
key is marked as unresolved. A key may hold line feeds or end with the mark itself, so the lines are
read along the missing keys. -/
def ListsInText (c : Catalog) (out locale key : String) : Prop :=
  ∃ marked : String → Bool, key ∈ (c.coverage locale).missing ∧ marked key = true ∧
    out = Grid.render header [row c.keys.length (c.coverage locale)] ++ "\n" ++
      ("\nMissing in " ++ locale ++ ":\n" ++ keyLines marked (c.coverage locale).missing)

/-- What is printed tells the key as unresolved in the locale. -/
def Lists (c : Catalog) (json : Bool) (out locale key : String) : Prop :=
  if json then ListsInJson out locale key else ListsInText c out locale key

theorem keyLines_cons (marked : String → Bool) (key : String) (keys : List String) :
    (keyLines marked (key :: keys)).toList = "  - ".toList ++ (key.toList ++
      ((if marked key then " (unresolved)" else "").toList ++
        '\n' :: (keyLines marked keys).toList)) := by
  rw [keyLines, List.map_cons, String.join_cons]
  simp only [String.toList_append, List.append_assoc]
  rfl

theorem mark_append_inj {marked marked' : Bool} {x y : List Char}
    (h : (if marked then " (unresolved)" else "").toList ++ '\n' :: x =
      (if marked' then " (unresolved)" else "").toList ++ '\n' :: y) : marked = marked' ∧ x = y := by
  cases marked with
  | true =>
    cases marked' with
    | true => exact ⟨rfl, (List.cons.inj (List.append_cancel_left h)).2⟩
    | false => exact absurd (List.cons.inj h).1 (by decide)
  | false =>
    cases marked' with
    | true => exact absurd (List.cons.inj h).1 (by decide)
    | false => exact ⟨rfl, (List.cons.inj h).2⟩

/-- Given the missing keys, their lines tell which of them are marked. -/
theorem marked_eq_of_keyLines {marked marked' : String → Bool} {keys : List String}
    (h : keyLines marked keys = keyLines marked' keys) : ∀ key ∈ keys, marked key = marked' key := by
  induction keys with
  | nil =>
    intro key hkey
    cases hkey
  | cons first keys ih =>
    have hlist := congrArg String.toList h
    rw [keyLines_cons, keyLines_cons] at hlist
    obtain ⟨hfirst, hrest⟩ :=
      mark_append_inj (List.append_cancel_left (List.append_cancel_left hlist))
    intro key hkey
    obtain rfl | hkey := List.mem_cons.mp hkey
    · exact hfirst
    · exact ih (String.toList_inj.mp hrest) key hkey

/-- A row in JSON tells the unresolved keys. -/
theorem unresolved_eq_of_pretty {cov cov' : Coverage} {total total' : Nat}
    (hlocale : cov.locale = cov'.locale)
    (h : (Content.seq [content total cov]).pretty = (Content.seq [content total' cov']).pretty) :
    cov.unresolved = cov'.unresolved := by
  have hlist := congrArg String.toList h
  simp only [content, keysContent, Content.toList_pretty_row, hlocale, List.append_cancel_left_eq,
    List.cons.injEq, true_and] at hlist
  have hnumbers := Content.members_append_inj
    (fun _ _ h => (List.cons.inj (List.append_cancel_left h)).2) hlist
  have hfallback := Content.members_append_inj (fun _ _ => Content.eq_of_integer_append) hnumbers
  have htotal := Content.members_append_inj (fun _ _ => Content.eq_of_integer_append) hfallback
  have hkeys := Content.members_append_inj (fun _ _ => Content.eq_of_integer_append) htotal
  have hlast := Content.members_append_inj
    (fun _ _ h => (List.cons.inj (Content.strings_append_inj h).2).2) hkeys
  simp only [Content.toList_prettyMembers_singleton, List.append_assoc, List.cons_append,
    List.append_cancel_left_eq, List.cons.injEq, true_and] at hlast
  exact (Content.strings_append_inj hlast).1

theorem listsInJson_iff {c : Catalog} {locale key : String} {total : Nat} :
    ListsInJson ((Content.seq [content total (c.coverage locale)]).pretty ++ "\n") locale key ↔
      key ∈ (c.coverage locale).unresolved := by
  obtain ⟨-, hlocale⟩ := c.counts_coverage locale
  constructor
  · intro h
    obtain ⟨cov, total', rfl, hkey, hout⟩ := h
    have hpretty : (Content.seq [content total (c.coverage cov.locale)]).pretty =
        (Content.seq [content total' cov]).pretty := (String.append_left_inj _).mp hout
    rw [unresolved_eq_of_pretty hlocale hpretty]
    exact hkey
  · intro h
    refine ⟨c.coverage locale, total, hlocale, h, ?_⟩
    rw [content, hlocale]
    rfl

theorem missingList_eq {cov : Coverage} {key : String} (h : key ∈ cov.missing) :
    missingList cov =
      "\nMissing in " ++ cov.locale ++ ":\n" ++ keyLines cov.unresolved.contains cov.missing := by
  have hsome : ¬ cov.missing.isEmpty = true := by
    intro hempty
    rw [List.isEmpty_iff.mp hempty] at h
    cases h
  rw [missingList, if_neg hsome]
  rfl

theorem listsInText_iff {c : Catalog} {locale key : String} :
    ListsInText c (text c.keys.length [c.coverage locale]) locale key ↔
      key ∈ (c.coverage locale).unresolved := by
  obtain ⟨hcounts, hlocale⟩ := c.counts_coverage locale
  rw [text, List.map_singleton, List.map_singleton, String.join_cons, String.join_nil,
    String.append_empty]
  constructor
  · intro h
    obtain ⟨marked, hkey, hmarked, hout⟩ := h
    rw [missingList_eq hkey, hlocale, String.append_right_inj, String.append_right_inj] at hout
    have hcontains := marked_eq_of_keyLines hout key hkey
    rw [hmarked] at hcontains
    simpa using hcontains
  · intro h
    have hmissing := hcounts.unresolved_subset h
    refine ⟨(c.coverage locale).unresolved.contains, hmissing, ?_, ?_⟩
    · simpa using h
    · rw [missingList_eq hmissing, hlocale]

/-- A run that reports on one locale tells just its unresolved keys as such. -/
theorem lists_iff_unresolved {files : String → Except FileFault String} {options : CoverageOptions}
    {c : Catalog} {warnings : List Warning} {locale key : String}
    (hload : Diagnostic.load options.document (files options.document) = .ok (c, warnings))
    (hcodes : codes c options = [locale]) :
    Lists c options.json (run files options).out locale key ↔
      key ∈ (c.coverage locale).unresolved := by
  have hout : (run files options).out = report options c.keys.length [c.coverage locale] := by
    rw [run, hload]
    simp only [hcodes, List.map_singleton]
  rw [hout, report, Lists]
  cases options.json with
  | true => exact listsInJson_iff
  | false => exact listsInText_iff

end CoverageReport

namespace Phrase

/-- The run prints nothing and ends with the code for problems in the data. After what it told
before, it reports that the phrase is missing, in JSON or as a text. -/
def Fails (told : String) (json : Bool) (outcome : Outcome) (key : String) : Prop :=
  outcome.code = 65 ∧ outcome.out = "" ∧ ∃ (tried suggestions : List String) (message : String),
    message = "missing phrase key '" ++ key ++ "' (tried: " ++ String.intercalate " -> " tried ++ ")"
      ++ (if suggestions.isEmpty then ""
          else "; did you mean: " ++ String.intercalate ", " suggestions) ∧
    outcome.err = told ++ ((if json then (Content.map [("error", .string message)]).pretty
      else highlight .red "error" ++ ": " ++ message) ++ "\n")

theorem out_told (c : Catalog) (warnings : List Warning) (options : RenderOptions)
    (verbose : Bool) : (told c warnings options verbose).out = "" := by
  have hlocale : ∀ locale, (localeWarning c locale).out = "" := by
    intro locale
    cases locale with
    | none => rfl
    | some code =>
      rw [localeWarning]
      split
      · rfl
      · rfl
  rw [told, Outcome.andThen, hlocale]
  cases verbose with
  | true => rfl
  | false => rfl

theorem code_resolved (options : RenderOptions) (verbose : Bool) (selected : String)
    (r : Catalog.Resolution) : (resolved options verbose selected r).code = 0 := by
  rw [resolved]
  split
  · rfl
  · rfl

/-- The line of a fault tells its message. -/
theorem message_eq_of_line {json : Bool} {message message' : String}
    (h : (if json then (Content.map [("error", .string message)]).pretty
        else highlight .red "error" ++ ": " ++ message) =
      if json then (Content.map [("error", .string message')]).pretty
        else highlight .red "error" ++ ": " ++ message') : message = message' := by
  cases json with
  | true => exact Content.pretty_string_inj h
  | false => exact (String.append_right_inj _).mp h

/-- The messages about bindings do not begin as the one about a missing phrase. -/
theorem binding_message_ne (key rest : String) (fault : BindingFault) :
    (ResolveFault.binding key fault).message ≠ "missing phrase key '" ++ rest := by
  have hhead : (ResolveFault.binding key fault).message.toList.head? = some 'p' := by
    cases fault with
    | unbound name =>
      show ("phrase '" ++ key ++ _ ++ name ++ _).toList.head? = some 'p'
      simp
    | fragmentInHref name =>
      show ("phrase '" ++ key ++ _ ++ name ++ _).toList.head? = some 'p'
      simp
  intro h
  rw [h] at hhead
  simp at hhead

/-- A run whose document is loaded fails so exactly if the phrase is missing. -/
theorem fails_iff_missing {c : Catalog} {warnings : List Warning} {options : RenderOptions}
    {verbose : Bool} {files : String → Except FileFault String}
    (hload : Diagnostic.load options.document (files options.document) = .ok (c, warnings)) :
    Fails (told c warnings options verbose).err options.json (run files options verbose)
      options.key ↔ ∃ tried suggestions,
        resolution c options = .error (.missingKey options.key tried suggestions) := by
  have hout := out_told c warnings options verbose
  rw [run, hload]
  simp only
  constructor
  · intro h
    obtain ⟨hcode, -, tried, suggestions, message, rfl, herr⟩ := h
    obtain ⟨-, hmissing⟩ | ⟨-, ⟨r, hr⟩ | ⟨misfit, hr⟩⟩ :=
      c.resolution_cases (store c options).selected options.key (bindings options.params)
    · exact hmissing
    · have hresolution : resolution c options = .ok r := hr
      rw [hresolution] at hcode
      simp only [Outcome.andThen, code_resolved] at hcode
      cases hcode
    · have hresolution : resolution c options = .error (.binding options.key misfit) := hr
      rw [hresolution] at herr
      have hline := (String.append_left_inj "\n").mp ((String.append_right_inj _).mp herr)
      have hmessage := message_eq_of_line hline
      simp only [String.append_assoc] at hmessage
      exact absurd hmessage (binding_message_ne _ _ misfit)
  · intro h
    obtain ⟨tried, suggestions, hresolution⟩ := h
    rw [hresolution]
    refine ⟨rfl, ?_, tried, suggestions, _, rfl, rfl⟩
    show (told c warnings options verbose).out ++ "" = ""
    rw [hout]
    rfl

end Phrase

end Phrasebook
