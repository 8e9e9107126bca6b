import FirmwareUpdate.Report
import FirmwareUpdate.Proofs.TextCuts
import FirmwareUpdate.Proofs.WrittenTexts

/-!
# What a report's body tells

The body of a report is an object of three texts, and each is read back as it was written. So the job's id and
the status can be read off the body, and as much of the information as is sent.
-/

namespace FirmwareUpdate

open Json (Piece Tree Value)

namespace Report

theorem word_inj {s t : JobStatus} (h : s.word = t.word) : s = t := by
  cases s <;> cases t <;> first | rfl | exact absurd h (by decide)

def tree (id : String) (status : JobStatus) (kept : String) : Tree :=
  .object [(Piece.quoted "ota_job_id", .text (Piece.quoted id)),
    (Piece.quoted "status", .text (Piece.quoted status.word)),
    (Piece.quoted "additional_info", .text (Piece.quoted kept))]

def value (id : String) (status : JobStatus) (kept : String) : Value :=
  .object [("additional_info", .text kept), ("ota_job_id", .text id), ("status", .text status.word)]

variable (id : String) (status : JobStatus)

theorem writtenAs_body (info : String) :
    (tree id status (Text.takeBytes infoLimit info)).WrittenAs (body id status info) := by
  let texts := [("ota_job_id", id), ("status", status.word), ("additional_info", Text.takeBytes infoLimit info)]
  have hmembers : ∀ m ∈ texts.map fun p => (p.1, Tree.text (Piece.quoted p.2), Json.quote p.2),
      m.2.1.WrittenAs m.2.2 := by
    intro m hm
    obtain ⟨p, -, rfl⟩ := List.mem_map.mp hm
    exact Tree.writtenAs_quote p.2
  exact Tree.writtenAs_braces hmembers

theorem ofTree?_tree (kept : String) :
    Value.ofTree? Json.depthLimit (tree id status kept) = some (value id status kept) := by
  have hsorted : Value.insert "additional_info" (.text kept)
      (Value.insert "status" (.text status.word) (Value.insert "ota_job_id" (.text id) [])) =
        [("additional_info", .text kept), ("ota_job_id", .text id), ("status", .text status.word)] := rfl
  simp [tree, value, Json.depthLimit, Value.ofTree?, Value.membersOf?, Piece.text?_quoted, hsorted]

theorem ofBytes?_body (info : String) :
    Value.ofBytes? (body id status info) = some (value id status (Text.takeBytes infoLimit info)) := by
  rw [Value.ofBytes?, (writtenAs_body id status info).ofBytes?]
  exact ofTree?_tree id status _

variable {id status} {id' : String} {status' : JobStatus} {info info' : String}

/-- A body tells everything that it was made for; of the information, as much as is sent. -/
theorem body_inj_sent (h : body id status info = body id' status' info') :
    id = id' ∧ status = status' ∧ Text.takeBytes infoLimit info = Text.takeBytes infoLimit info' := by
  have hvalue := ofBytes?_body id status info
  rw [h, ofBytes?_body] at hvalue
  simp only [value, Option.some.injEq, Value.object.injEq, List.cons.injEq, Prod.mk.injEq, Value.text.injEq,
    true_and, and_true] at hvalue
  obtain ⟨hkept, hid, hword⟩ := hvalue
  exact ⟨hid.symm, (word_inj hword).symm, hkept.symm⟩

theorem body_inj (h : body id status info = body id' status' info') : id = id' ∧ status = status' :=
  have ⟨hid, hstatus, _⟩ := body_inj_sent h
  ⟨hid, hstatus⟩

/-- Whatever the texts are, the body is read back as three members: the job's id, the word for the status, and
of the information the longest beginning that takes at most 128 bytes. -/
theorem body_read_back (id : String) (status : JobStatus) (info : String) :
    ∃ kept, Text.Longest 128 info kept ∧
      Bytes.ofText kept = (Bytes.ofText info).take (Text.lastBoundary info 128) ∧
      (tree id status kept).WrittenAs (body id status info) ∧
      Value.ofBytes? (body id status info) = some (value id status kept) :=
  ⟨Text.takeBytes infoLimit info, Text.takeBytes_longest infoLimit info, Text.ofText_takeBytes infoLimit info,
    writtenAs_body id status info, ofBytes?_body id status info⟩

end Report

end FirmwareUpdate
