import LintTriage.Finding
import LintTriage.Proofs.Json.Same

namespace LintTriage

attribute [ext] Position Range Span Edit Fix

theorem Position.eq_of_same_toJson {p q : Position} (h : p.toJson.Same q.toJson) : p = q := by
  have hl : p.line.toInt = q.line.toInt := (h.of_member? "line" rfl rfl).integer_inj rfl rfl
  have hc : p.character.toInt = q.character.toInt := (h.of_member? "character" rfl rfl).integer_inj rfl rfl
  exact Position.ext (Int64.toInt_inj.mp hl) (Int64.toInt_inj.mp hc)

theorem Range.eq_of_same_toJson {r s : Range} (h : r.toJson.Same s.toJson) : r = s := by
  have hs : r.start = s.start := Position.eq_of_same_toJson (h.of_member? "start" rfl rfl)
  have he : r.stop = s.stop := Position.eq_of_same_toJson (h.of_member? "end" rfl rfl)
  exact Range.ext hs he

theorem Span.eq_of_same_toJson {s t : Span} (h : s.toJson.Same t.toJson) : s = t := by
  have hs : (s.start : Int) = t.start := (h.of_member? "start" rfl rfl).integer_inj rfl rfl
  have he : (s.stop : Int) = t.stop := (h.of_member? "end" rfl rfl).integer_inj rfl rfl
  exact Span.ext (Int.ofNat_inj.mp hs) (Int.ofNat_inj.mp he)

namespace Edit

theorem member?_fixName (edit : Edit) :
    edit.toJson.member? "fixName" = edit.name.map Json.text := by
  rw [toJson]
  cases edit.name <;> rfl

theorem member?_newText (edit : Edit) : edit.toJson.member? "newText" = some (.text edit.text) := by
  rw [toJson]
  cases edit.name <;> rfl

theorem name_eq_of_same_toJson {a b : Edit} (h : a.toJson.Same b.toJson) : a.name = b.name := by
  have hnone : a.name = none ↔ b.name = none := by
    simpa only [member?_fixName, Option.map_eq_none_iff] using h.member?_eq_none_iff "fixName"
  cases ha : a.name with
  | none => exact (hnone.mp ha).symm
  | some s =>
    cases hb : b.name with
    | none => simp [hnone.mpr hb] at ha
    | some t =>
      have hs : a.toJson.member? "fixName" = some (.text s) := by rw [member?_fixName, ha]; rfl
      have ht : b.toJson.member? "fixName" = some (.text t) := by rw [member?_fixName, hb]; rfl
      rw [(h.of_member? "fixName" hs ht).text_inj]

theorem eq_of_same_toJson {a b : Edit} (h : a.toJson.Same b.toJson) : a = b := by
  have hr : a.range = b.range := Range.eq_of_same_toJson (h.of_member? "range" rfl rfl)
  have hs : a.span = b.span := Span.eq_of_same_toJson (h.of_member? "span" rfl rfl)
  have hn : a.name = b.name := name_eq_of_same_toJson h
  have ht : a.text = b.text :=
    (h.of_member? "newText" a.member?_newText b.member?_newText).text_inj
  exact Edit.ext hr hs hn ht

end Edit

theorem Fix.eq_of_same_toJson {a b : Fix} (h : a.toJson.Same b.toJson) : a = b := by
  have hl : a.label = b.label := (h.of_member? "label" rfl rfl).text_inj
  have hv : a.version = b.version := (h.of_member? "documentVersion" rfl rfl).integer_inj rfl rfl
  have hr : a.ruleId = b.ruleId := (h.of_member? "ruleId" rfl rfl).text_inj
  have he : a.edit = b.edit := Edit.eq_of_same_toJson (h.of_member? "edit" rfl rfl)
  exact Fix.ext hl hv hr he

theorem Fix.toJson_faithful :
    (∀ a b : Fix, a.toJson ≈ b.toJson ↔ a = b) ∧
    ∀ fix : Fix, ¬ ({ fix with edit.name := none } : Fix).toJson ≈
      ({ fix with edit.name := some "" } : Fix).toJson := by
  refine ⟨fun a b => ⟨eq_of_same_toJson, ?_⟩, ?_⟩
  · rintro rfl
    exact .refl _
  · intro fix h
    have hn : none = some "" := congrArg (fun fix : Fix => fix.edit.name) (eq_of_same_toJson h)
    contradiction

end LintTriage
