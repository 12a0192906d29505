import Mathlib.Data.List.Induction
import Phrasebook.Proofs.Render.Merged
import Phrasebook.Proofs.Render.Rich
import Phrasebook.Render.Overlay

namespace Phrasebook

def Landmark.overlay? : Landmark → Option DebugInfo
  | .overlay info => some info
  | _ => none

namespace RichNode

/-- What the overlays of a tree tell, each before those inside it. -/
def overlaysAll (tree : List RichNode) : List DebugInfo :=
  (landmarksAll tree).filterMap Landmark.overlay?

theorem overlaysAll_append (ns ms : List RichNode) :
    overlaysAll (ns ++ ms) = overlaysAll ns ++ overlaysAll ms := by
  rw [overlaysAll, landmarksAll_append, List.filterMap_append]
  rfl

theorem overlaysAll_item (children : List RichNode) :
    overlaysAll [.item children] = overlaysAll children := by
  rw [overlaysAll, landmarksAll, landmarks, landmarksAll, List.append_nil]
  rfl

theorem overlaysAll_overlay (info : DebugInfo) (shown : Bool) (children : List RichNode) :
    overlaysAll [.overlay info shown children] = info :: overlaysAll children := by
  rw [overlaysAll, landmarksAll, landmarks, landmarksAll, List.append_nil]
  rfl

/-- An event passes a node that is no overlay by. -/
theorem handle_eq_self {n : RichNode} {ns : List RichNode} (h : overlaysAll (n :: ns) = [])
    (e : PointerEvent) : n.handle e = n := by
  cases n with
  | overlay info shown children =>
    rw [← List.singleton_append, overlaysAll_append, overlaysAll_overlay] at h
    cases h
  | _ => rfl

end RichNode

namespace Rich

open RichNode

theorem overlaysAll_wrap_content (styles : Styles) (s : String) :
    overlaysAll (wrap styles (content s)) = [] := by
  apply wrap_content_induction (P := fun ns => overlaysAll ns = [])
  · rfl
  · exact fun _ h => h
  · exact fun _ _ _ h => h
  · intro m ns h
    simpa [overlaysAll, landmarksAll, landmarks] using h

/-- Rendering makes no overlays. -/
theorem overlaysAll_render (p : String → Bool) (ns : List Node) :
    overlaysAll ((intercepting p).render ns) = [] := by
  apply Closed.render (P := fun ns => overlaysAll ns = [])
  refine ⟨rfl, ?_, overlaysAll_wrap_content, ?_, ?_, ?_⟩
  · intro ns ms hns hms
    rw [overlaysAll_append, hns, hms, List.append_nil]
  · intro href name action ns h
    simpa [overlaysAll, landmarksAll, landmarks, Landmark.overlay?] using h
  · intro ns h
    rw [overlaysAll_item, h]
  · intro kind rows h
    have hrows : ((rows.map fun row => [RichNode.item row]).flatMap landmarksAll).filterMap
        Landmark.overlay? = [] := by
      rw [List.flatMap_map, List.filterMap_flatMap, List.flatMap_eq_nil_iff]
      intro row hrow
      exact (overlaysAll_item row).trans (h row hrow)
    rw [overlaysAll, landmarksAll, landmarks, landmarksItems_mapIdx, landmarksAll, List.append_nil,
      List.filterMap_cons_none (by rfl), hrows]

end Rich

namespace DisplayStep

/-- The step makes a new output. -/
def draws : DisplayStep → Bool
  | .render | .wrap => true
  | .enable | .disable | .toggle | .event _ => false

def event? : DisplayStep → Option PointerEvent
  | .event e => some e
  | .enable | .disable | .toggle | .render | .wrap => none

/-- The switch after a step. -/
def switch (on : Bool) : DisplayStep → Bool
  | .enable => true
  | .disable => false
  | .toggle => !on
  | .render | .wrap | .event _ => on

end DisplayStep

namespace Display

open RichNode

variable (info : DebugInfo) (nodes : List Node)

/-- The display after steps, one after the other. -/
def run (d : Display) (steps : List DisplayStep) : Display := steps.foldl (step info nodes) d

theorem run_append (d : Display) (steps steps' : List DisplayStep) :
    run info nodes d (steps ++ steps') = run info nodes (run info nodes d steps) steps' :=
  List.foldl_append

theorem run_concat (d : Display) (steps : List DisplayStep) (s : DisplayStep) :
    run info nodes d (steps ++ [s]) = (run info nodes d steps).step info nodes s :=
  run_append info nodes d steps [s]

variable {info nodes}

theorem debug_step (d : Display) (s : DisplayStep) :
    (d.step info nodes s).debug = s.switch d.debug := by
  cases s with
  | event e =>
    rw [step]
    split <;> rfl
  | _ => rfl

/-- The switch is what the switching steps make of it. -/
theorem debug_run (d : Display) (steps : List DisplayStep) :
    (run info nodes d steps).debug = steps.foldl DisplayStep.switch d.debug := by
  induction steps generalizing d with
  | nil => rfl
  | cons s steps ih =>
    rw [List.foldl_cons, ← debug_step]
    exact ih _

theorem latest_step_of_no_overlay {d : Display} {s : DisplayStep}
    (hlatest : overlaysAll d.latest = []) (hs : s.draws = false) :
    (d.step info nodes s).latest = d.latest := by
  cases s with
  | event e =>
    rw [step]
    split
    · rfl
    · next node rest hnodes =>
      rw [hnodes] at hlatest
      rw [handle_eq_self hlatest, hnodes]
  | enable | disable | toggle => rfl
  | render | wrap => cases hs

theorem latest_step_of_overlay {d : Display} {s : DisplayStep} {shown : Bool}
    {children : List RichNode} (hlatest : d.latest = [.overlay info shown children])
    (hs : s.draws = false) :
    (d.step info nodes s).latest =
      [.overlay info ((s.event?.map PointerEvent.shows).getD shown) children] := by
  cases s with
  | event e =>
    rw [step, hlatest]
    rfl
  | enable | disable | toggle => exact hlatest
  | render | wrap => cases hs

/-- Without an overlay nothing but a new output changes the latest one. -/
theorem latest_run_of_no_overlay {d : Display} {steps : List DisplayStep}
    (hlatest : overlaysAll d.latest = []) (hsteps : ∀ s ∈ steps, s.draws = false) :
    (run info nodes d steps).latest = d.latest := by
  induction steps using List.reverseRecOn with
  | nil => rfl
  | append_singleton steps s ih =>
    have hrun := ih fun s hs => hsteps s (List.mem_append_left _ hs)
    rw [run_concat, latest_step_of_no_overlay (by rw [hrun]; exact hlatest) (hsteps s (by simp)),
      hrun]

/-- The panel is as the last event left it, and as it was if there was none. -/
theorem latest_run_of_overlay {d : Display} {steps : List DisplayStep} {shown : Bool}
    {children : List RichNode} (hlatest : d.latest = [.overlay info shown children])
    (hsteps : ∀ s ∈ steps, s.draws = false) :
    (run info nodes d steps).latest = [.overlay info
      (((steps.filterMap DisplayStep.event?).getLast?.map PointerEvent.shows).getD shown)
      children] := by
  induction steps using List.reverseRecOn with
  | nil => exact hlatest
  | append_singleton steps s ih =>
    have hrun := ih fun s hs => hsteps s (List.mem_append_left _ hs)
    rw [run_concat, latest_step_of_overlay hrun (hsteps s (by simp)), List.filterMap_append,
      List.getLast?_append]
    cases s with
    | event e => rfl
    | _ => rfl

theorem shows_iff {e : PointerEvent} : e.shows = true ↔ e = .enter ∨ e = .click ∨ e = .touch := by
  cases e <;> simp [PointerEvent.shows]

/-- The panel of a new overlay opens if there were events and the last of them opens it. -/
theorem isSome_panel?_iff {events : List PointerEvent} {children : List RichNode} :
    (panel? (.overlay info ((events.getLast?.map PointerEvent.shows).getD false)
        children)).isSome = true ↔
      ∃ e, events.getLast? = some e ∧ (e = .enter ∨ e = .click ∨ e = .touch) := by
  cases events.getLast? with
  | none => simp [panel?]
  | some e =>
    simp only [← shows_iff]
    cases he : e.shows <;> simp [panel?, he]

/-- What a rendering leaves on display, and what becomes of it until the next output. The switch
heeds nothing but the steps that turn it. With the switch off the output is the phrase as the
renderer leaves it, without any overlay, and stays so. With the switch on the output is one overlay
that tells `info`, hidden at first, around the phrase as the renderer leaves it; later steps change
its panel alone, which is open if there were events since and the last of them opens it. -/
theorem overlay_keeps_what_it_wraps (info : DebugInfo) (nodes : List Node) (start : Display)
    (before after : List DisplayStep) (hafter : ∀ s ∈ after, s.draws = false) :
    (∀ steps, (run info nodes start steps).debug = steps.foldl DisplayStep.switch start.debug) ∧
    ((run info nodes start before).debug = false →
      (run info nodes start (before ++ [.render])).latest = Rich.renderer.render nodes ∧
      overlaysAll (Rich.renderer.render nodes) = [] ∧
      (run info nodes start (before ++ .render :: after)).latest = Rich.renderer.render nodes) ∧
    ((run info nodes start before).debug = true →
      (run info nodes start (before ++ [.render])).latest =
        [.overlay info false (Rich.renderer.render nodes)] ∧
      overlaysAll (run info nodes start (before ++ [.render])).latest = [info] ∧
      ∃ shown, (run info nodes start (before ++ .render :: after)).latest =
          [.overlay info shown (Rich.renderer.render nodes)] ∧
        ((panel? (.overlay info shown (Rich.renderer.render nodes))).isSome = true ↔
          ∃ e, (after.filterMap DisplayStep.event?).getLast? = some e ∧
            (e = .enter ∨ e = .click ∨ e = .touch))) := by
  have hnone : overlaysAll (Rich.renderer.render nodes) = [] :=
    Rich.overlaysAll_render (fun _ => false) nodes
  have hmade : (run info nodes start (before ++ [.render])).latest =
      Rich.render Rich.renderer (run info nodes start before).debug info nodes := by
    rw [run_concat]
    rfl
  have hlater : run info nodes start (before ++ .render :: after) =
      run info nodes (run info nodes start (before ++ [.render])) after := by
    rw [← run_append, List.append_assoc, List.singleton_append]
  refine ⟨debug_run start, ?_, ?_⟩
  · intro hoff
    rw [hoff] at hmade
    have hphrase : (run info nodes start (before ++ [.render])).latest =
        Rich.renderer.render nodes := hmade
    refine ⟨hphrase, hnone, ?_⟩
    rw [hlater, latest_run_of_no_overlay (by rw [hphrase]; exact hnone) hafter, hphrase]
  · intro hon
    rw [hon] at hmade
    have hoverlay : (run info nodes start (before ++ [.render])).latest =
        [.overlay info false (Rich.renderer.render nodes)] := hmade
    refine ⟨hoverlay, ?_, _, ?_, isSome_panel?_iff⟩
    · rw [hoverlay, overlaysAll_overlay, hnone]
    · rw [hlater]
      exact latest_run_of_overlay hoverlay hafter

/-- A link in a list, and bold text with a line break. -/
def leaflet : List Node :=
  [.list .ordered [[.ofLink "/x" "a"]], .styled "b\nc" { bold := true }]

theorem overlay_keeps_what_it_wraps_leaflet :
    (run ⟨"nav", "links"⟩ leaflet ⟨false, []⟩
      [.event .click, .render, .toggle, .render, .event .leave, .disable, .event .touch]).latest =
      [.overlay ⟨"nav", "links"⟩ true (Rich.renderer.render leaflet)] := by
  have hafter : ∀ s ∈ [.event .leave, .disable, .event .touch], DisplayStep.draws s = false := by
    decide
  obtain ⟨-, -, hon⟩ := overlay_keeps_what_it_wraps ⟨"nav", "links"⟩ leaflet ⟨false, []⟩
    [.event .click, .render, .toggle] [.event .leave, .disable, .event .touch] hafter
  obtain ⟨-, -, shown, hlatest, hpanel⟩ := hon rfl
  have hopen := hpanel.mpr ⟨.touch, rfl, by decide⟩
  cases shown with
  | false => cases hopen
  | true => exact hlatest

end Display

end Phrasebook
