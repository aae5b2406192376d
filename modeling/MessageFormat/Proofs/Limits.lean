import MessageFormat.Proofs.Derivation.Refusals
import Mathlib.Control.Monad.Basic

/-!
# Limits only refuse

What is read within a nesting limit is read within every larger one (`Reads.within`). A failure
within the smaller limit is that limit itself, or the same failure within the larger one
(`Fails.within`): the limit is tested where a body begins, so up to there both readings agree.

For whole texts this says that a limit on size or nesting never changes an answer but to a refusal
that names the limit.
-/

namespace MessageFormat

namespace Context

/-- The same context with another nesting limit. -/
def within (cx : Context) (limit : Int) : Context :=
  { cx with limit := limit }

variable {cx inner : Context} {limit : Int} {enclosing : Enclosing}

/-- A body that may be entered may be entered within a larger limit. -/
theorem enter?_within
    (h : cx.enter? enclosing = some inner) (hle : cx.limit ≤ limit) :
    (cx.within limit).enter? enclosing = some (inner.within limit) := by
  obtain ⟨hlt, rfl⟩ := enter?_eq_some h
  have hlt : (cx.within limit).depth < (cx.within limit).limit := Int.lt_of_lt_of_le hlt hle
  exact enter?_of_lt hlt enclosing

theorem limit_of_enter
    (h : cx.enter? enclosing = some inner) :
    inner.limit = cx.limit := by
  obtain ⟨_, rfl⟩ := enter?_eq_some h
  rfl

/-- A larger limit keeps every reading. -/
theorem Reads.within
    {p q : Place} {x : Reading}
    (h : Reads cx p x q) (hle : cx.limit ≤ limit) :
    Reads (cx.within limit) p x q := by
  induction h with
  | bodyAtEnd hpeek => exact .bodyAtEnd hpeek
  | bodyEnded hpeek hends => exact .bodyEnded hpeek hends
  | bodyClosed hpeek hends hpiece ih => exact .bodyClosed hpeek hends (ih hle)
  | bodyNode hpeek hends hpiece hbody ihpiece ihbody =>
      exact .bodyNode hpeek hends (ihpiece hle) (ihbody hle)
  | atom hatom => exact .atom hatom
  | opened hatom hopener hnode ih => exact .opened hatom hopener (ih hle)
  | marked hatom htags hopener hmarkup ih => exact .marked hatom htags hopener (ih hle)
  | text hraw => exact .text hraw
  | bare hhead => exact .bare hhead
  | typed hhead => exact .typed hhead
  | formatted hhead hoffset hplain hformat hcloser =>
      exact .formatted hhead hoffset hplain hformat hcloser
  | branching hhead hoffset hbranching henter hsubs hcomplete hcloser ih =>
      have hinner := ih (limit_of_enter henter ▸ hle)
      exact .branching hhead hoffset hbranching (enter?_within henter hle) hinner hcomplete hcloser
  | entriesEnded hpeek => exact .entriesEnded hpeek
  | entry hpeek hselector hbody hcloser hsubs ihbody ihsubs =>
      exact .entry hpeek hselector (ihbody hle) hcloser (ihsubs hle)
  | keptMarkup hhead => exact .keptMarkup hhead
  | closingTag hhead => exact .closingTag hhead
  | emptyTag hhead => exact .emptyTag hhead
  | tag hhead henter hbody hclosed ih =>
      have hinner := ih (limit_of_enter henter ▸ hle)
      exact .tag hhead (enter?_within henter hle) hinner hclosed

/-- A failure is the limit itself, or stays the same within a larger limit. -/
theorem Fails.within
    {p : Place} {rule : Rule} {f : Failure}
    (h : Fails cx p rule f) (hle : cx.limit ≤ limit) :
    f.cause = .tooDeep cx.limit ∨ Fails (cx.within limit) p rule f := by
  induction h with
  | piece hpeek hends hpiece ih =>
      exact (ih hle).imp_right fun hfails => .piece hpeek hends hfails
  | rest hpeek hends hpiece hrest ih =>
      exact (ih hle).imp_right fun hfails => .rest hpeek hends (hpiece.within hle) hfails
  | opened hatom hopener hnode ih =>
      exact (ih hle).imp_right fun hfails => .opened hatom hopener hfails
  | marked hatom htags hopener hmarkup ih =>
      exact (ih hle).imp_right fun hfails => .marked hatom htags hopener hfails
  | head hhead => exact .inr (.head hhead)
  | offset hhead hoffset => exact .inr (.offset hhead hoffset)
  | format hhead hoffset hplain hformat => exact .inr (.format hhead hoffset hplain hformat)
  | formatCloser hhead hoffset hplain hformat hcloser =>
      exact .inr (.formatCloser hhead hoffset hplain hformat hcloser)
  | placeholderTooDeep hhead hoffset hbranching henter => exact .inl rfl
  | submessages hhead hoffset hbranching henter hsubs ih =>
      have hlimit := limit_of_enter henter
      rw [← hlimit] at hle ⊢
      refine (ih hle).imp_right fun hfails => ?_
      exact .submessages hhead hoffset hbranching (enter?_within henter (hlimit ▸ hle)) hfails
  | incomplete hhead hoffset hbranching henter hsubs hincomplete =>
      have hinner := hsubs.within (limit_of_enter henter ▸ hle)
      exact .inr
        (.incomplete hhead hoffset hbranching (enter?_within henter hle) hinner hincomplete)
  | branchingCloser hhead hoffset hbranching henter hsubs hcomplete hcloser =>
      have hinner := hsubs.within (limit_of_enter henter ▸ hle)
      exact .inr (.branchingCloser hhead hoffset hbranching (enter?_within henter hle) hinner
        hcomplete hcloser)
  | selector hpeek hselector => exact .inr (.selector hpeek hselector)
  | entryBody hpeek hselector hbody ih =>
      exact (ih hle).imp_right fun hfails => .entryBody hpeek hselector hfails
  | entryCloser hpeek hselector hbody hcloser =>
      exact .inr (.entryCloser hpeek hselector (hbody.within hle) hcloser)
  | laterEntry hpeek hselector hbody hcloser hsubs ih =>
      exact (ih hle).imp_right fun hfails =>
        .laterEntry hpeek hselector (hbody.within hle) hcloser hfails
  | tagHead hhead => exact .inr (.tagHead hhead)
  | tagTooDeep hhead henter => exact .inl rfl
  | tagBody hhead henter hbody ih =>
      have hlimit := limit_of_enter henter
      rw [← hlimit] at hle ⊢
      refine (ih hle).imp_right fun hfails => ?_
      exact .tagBody hhead (enter?_within henter (hlimit ▸ hle)) hfails
  | tagUnclosed hhead henter hbody hopen =>
      have hinner := hbody.within (limit_of_enter henter ▸ hle)
      exact .inr (.tagUnclosed hhead (enter?_within henter hle) hinner hopen)

end Context

namespace Reader

/-- Within a larger nesting limit the same is read, unless this reader stops at its own limit. -/
theorem read_within
    (r : Reader) (text : List Char) {limit : Int} (hle : r.depthLimit ≤ limit) :
    r.read text = { r with depthLimit := limit }.read text ∨
      ∃ place, r.read text = .error (.failure ⟨.tooDeep r.depthLimit, place⟩) := by
  cases hread : r.read text with
  | ok result =>
      obtain ⟨m, p⟩ := result
      obtain ⟨hsize, closed, hreads⟩ := read_eq_ok_iff.mp hread
      left
      symm
      exact read_eq_ok_iff.mpr ⟨hsize, closed, hreads.within hle⟩
  | error fault =>
      rcases read_eq_error hread with ⟨hsize, rfl⟩ | ⟨f, hfails, rfl⟩
      · left
        unfold Refuses at hsize
        rw [read, if_pos hsize]
      · rcases hfails.within hle with hcause | hfails'
        · right
          obtain ⟨cause, place⟩ := f
          obtain rfl : cause = .tooDeep r.depthLimit := hcause
          exact ⟨place, rfl⟩
        · left
          symm
          obtain ⟨hsize, _⟩ := read_eq_failure_iff.mp hread
          exact read_eq_failure_iff.mpr ⟨hsize, hfails'⟩

/-- A text that is too large is refused before it is read. -/
theorem readValue_of_refuses
    {r : Reader} {v : Value} (h : r.Refuses v.display.toList) :
    (r.readValue v).outcome =
      .error (.invalidValue
        (Diagnostic.sourceTooLarge v.display.toList.length r.maxSize).message) := by
  unfold Refuses at h
  have hread : r.read v.display.toList =
      .error (.tooLarge v.display.toList.length r.maxSize) := by
    rw [read, if_pos h]
  simp [readValue, hread, ReadFault.toFault]

/-- Any other text is read as if there were no limit on its size. -/
theorem readValue_of_not_refuses
    {r : Reader} {v : Value} (h : ¬ r.Refuses v.display.toList) :
    r.readValue v = { r with maxSize := 0 }.readValue v := by
  unfold Refuses at h
  have hread : r.read v.display.toList = { r with maxSize := 0 }.read v.display.toList := by
    rw [read, if_neg h, read, if_neg (by simp)]
  simp [readValue, hread]

/-- Limits only refuse. A smaller nesting limit gives the same answer, with the same notes, or
the report that names it; a limit on the size gives the same answer as none, or refuses a larger
text. -/
theorem readValue_limits
    (r : Reader) (v : Value) :
    (∀ limit, r.depthLimit ≤ limit →
      r.readValue v = { r with depthLimit := limit }.readValue v ∨
        ∃ report, (r.readValue v).outcome = .error (.reported report) ∧
          report.kind = .depthLimit ∧
          report.message = s!"Maximum nesting depth ({r.depthLimit}) exceeded") ∧
    ∀ size : Int,
      if 0 < size ∧ size < v.display.toList.length then
        ({ r with maxSize := size }.readValue v).outcome =
          .error (.invalidValue
            (Diagnostic.sourceTooLarge v.display.toList.length size).message)
      else
        { r with maxSize := size }.readValue v = { r with maxSize := 0 }.readValue v := by
  constructor
  · intro limit hle
    rcases r.read_within v.display.toList hle with hsame | ⟨place, hdeep⟩
    · left
      simp only [readValue, hsame]
    · right
      refine ⟨Report.tooDeep r.depthLimit, ?_, rfl, rfl⟩
      simp [readValue, hdeep, ReadFault.toFault, Stretch.account]
  · intro size
    split
    · next hsize => exact readValue_of_refuses hsize
    · next hsize => exact readValue_of_not_refuses hsize

/-- Two levels of tags before a fault: within one level the limit is reported, within two the
fault. -/
theorem readValue_limits_nestedTags :
    ((⟨.standard, 0, 1⟩ : Reader).readValue (.str "<a><b>x</b></a>\x7b")).outcome ≠
        ((⟨.standard, 0, 2⟩ : Reader).readValue (.str "<a><b>x</b></a>\x7b")).outcome ∧
      ∃ report,
        ((⟨.standard, 0, 1⟩ : Reader).readValue (.str "<a><b>x</b></a>\x7b")).outcome =
            .error (.reported report) ∧
          report.kind = .depthLimit ∧
          report.message = s!"Maximum nesting depth ({(1 : Int)}) exceeded" := by
  have hne : ((⟨.standard, 0, 1⟩ : Reader).readValue (.str "<a><b>x</b></a>\x7b")).outcome ≠
      ((⟨.standard, 0, 2⟩ : Reader).readValue (.str "<a><b>x</b></a>\x7b")).outcome := by
    decide +kernel
  refine ⟨hne, ?_⟩
  rcases (readValue_limits ⟨.standard, 0, 1⟩ (.str "<a><b>x</b></a>\x7b")).1 2 (by decide) with
    hsame | hreport
  · exact absurd (congrArg Logged.outcome hsame) hne
  · exact hreport

end Reader

end MessageFormat
