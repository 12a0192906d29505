import Phrasebook.Proofs.Json.Written
import Phrasebook.Proofs.Node.Height
import Phrasebook.Proofs.Node.Reading

namespace Phrasebook

open Json

namespace Node

open Content

theorem numberless_styles (styles : Styles) : styles.toContent.Numberless :=
  ⟨trivial, trivial, trivial, trivial, trivial, trivial, trivial⟩

mutual

theorem numberless_toContent : ∀ node : Node, node.toContent.Numberless
  | .text content children styles =>
    ⟨trivial, trivial, numberless_toContents children, numberless_styles styles, trivial⟩
  | .link href content children styles name => by
    have hname : NumberlessPairs (nameMember name) := by
      cases name with
      | none => exact trivial
      | some name => exact ⟨trivial, trivial⟩
    rw [toContent]
    refine numberlessPairs_append.mpr ⟨?_, hname⟩
    exact ⟨trivial, trivial, trivial, numberless_toContents children, numberless_styles styles,
      trivial⟩
  | .item children => ⟨trivial, numberless_toContents children, trivial⟩
  | .list kind items => ⟨trivial, numberless_entriesToContents items, trivial⟩

theorem numberless_toContents : ∀ nodes : List Node, NumberlessAll (toContents nodes)
  | [] => trivial
  | node :: nodes => ⟨numberless_toContent node, numberless_toContents nodes⟩

theorem numberless_entriesToContents : ∀ items : List (List Node),
    NumberlessAll (entriesToContents items)
  | [] => trivial
  | children :: items =>
    ⟨⟨numberless_toContents children, trivial⟩, numberless_entriesToContents items⟩

end

theorem read_write_of_nesting {nodes : List Node}
    (h : (Content.seq (toContents nodes)).nesting < depthLimit) :
    read (write nodes) = .ok nodes :=
  read_eq_ok_iff.mpr ⟨_, Reader.run_compact (numberless_toContents nodes) h,
    ofList?_toContents nodes⟩

/-- Nodes that were read from a text nest, when they are written, no deeper than a reader may go. -/
theorem nesting_of_read {text : String} {nodes : List Node} (h : read text = .ok nodes) :
    (Content.seq (toContents nodes)).nesting < depthLimit := by
  obtain ⟨v, hv, hnodes⟩ := read_eq_ok_iff.mp h
  obtain ⟨rest, hcontent, -⟩ := Reader.run_eq_ok_iff.mp hv
  obtain ⟨vs, rfl, hvs⟩ := Reader.Tagging.mapM_of_list? hnodes
  rw [← ofContents_eq_mapM] at hvs
  have hlimit := Reader.nesting_lt (by decide) hcontent
  have hheight := height_of_ofContents vs hvs
  rw [nesting] at hlimit
  rw [nesting, nestingAll_toContents]
  -- The height is at most half of an even limit, less one for the list itself.
  have heven : depthLimit = 2 * 64 := rfl
  omega

/-- Nodes come back from their text if, and only if, it nests no deeper than a reader may go. Nodes
that were read from any text come back from the text that they are written as. -/
theorem read_write_iff (nodes : List Node) :
    (read (write nodes) = .ok nodes ↔ (Content.seq (toContents nodes)).nesting < depthLimit) ∧
    ∀ text, read text = .ok nodes → read (write nodes) = .ok nodes := by
  refine ⟨⟨nesting_of_read, read_write_of_nesting⟩, ?_⟩
  intro text h
  exact read_write_of_nesting (nesting_of_read h)

/-- A list and a text in as few words as possible. -/
def terse : String :=
  "[[\"ol\",[[],\x7b\x7d]],\x7b\"styles\":[true],\"x\":[0],\"type\":\"text\"\x7d]"

def terseNodes : List Node :=
  [.list .ordered [[], []], .text "" [] { bold := true }]

theorem read_write_terse :
    read terse = .ok terseNodes ∧ read (write terseNodes) = .ok terseNodes := by
  have hcontent : Reader.content.run terse =
      .ok (.seq [.seq [.string "ol", .seq [.seq [], .map []]], .map [("styles", .seq [.bool true]),
        ("x", .seq [.integer 0]), ("type", .string "text")]]) :=
    toOption_eq_some_iff.mp (by decide +kernel)
  have hread : read terse = .ok terseNodes := read_eq_ok_iff.mpr ⟨_, hcontent, rfl⟩
  exact ⟨hread, (read_write_iff terseNodes).2 terse hread⟩

end Node

end Phrasebook
