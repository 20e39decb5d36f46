import SecurityAudit.Detect.Secret
import SecurityAudit.Detect.Vulnerability
import SecurityAudit.Proofs.JsonValues

/-!
# What can be reported

A finding has an id, which is made of its rule and its place, and a hit or a secret can be reported
only when that id can be made: the id of the rule has to be one that can be written out, and it and
the path have to be in an encoding (`Finding.CanName`).  What is reported then is known in advance
(`findingOf`), so the detectors are described by the hits and secrets in a file, and whether they
give an answer by what has to be named for them.
-/

namespace SecurityAudit

/-- The findings of a rule in the file of a path can have an id. -/
structure Finding.CanName (rule : Value) (path : RawText) : Prop where
  written : rule.isWritable = true
  sound : rule.plain.isSound = true
  located : path.isSound = true

/-- The id is made when rule and path can be encoded. -/
theorem Finding.idOf_eq_ok_iff {rule path : RawText} {line id : String} :
    idOf rule path line = .ok id ↔
      (rule.isSound = true ∧ path.isSound = true) ∧
        idText rule.readable path.readable line = id := by
  cases rule <;> cases path <;> simp [idOf, bind, Except.bind, pure, Except.pure]

theorem RawText.encoded_eq_ok_iff {t : RawText} {s : String} :
    t.encoded = .ok s ↔ t.isSound = true ∧ t.readable = s := by
  cases t <;> simp

namespace Rule

variable {r : Rule} {now : Calendar.Moment} {path : RawText}

/-- The finding of a hit, if there can be one. -/
def findingOf (r : Rule) (now : Calendar.Moment) (path : RawText) (h : Hit) : Finding :=
  let file := path.readable
  r.findingAs now (Finding.idText r.id.shown file (toString (h.line : Int))) file h

/-- **A hit is reported** when its finding can have an id. -/
theorem finding_eq_ok_iff {h : Hit} {x : Finding} :
    r.finding now path h = .ok x ↔ Finding.CanName r.id path ∧ r.findingOf now path h = x := by
  simp only [finding, bind_eq_ok_iff, pure_eq_ok_iff, Value.asText_eq_ok_iff,
    Finding.idOf_eq_ok_iff, RawText.encoded_eq_ok_iff]
  constructor
  · rintro ⟨_, ⟨hwritten, rfl⟩, _, ⟨⟨hsound, hpath⟩, rfl⟩, _, ⟨-, rfl⟩, rfl⟩
    exact ⟨⟨hwritten, hsound, hpath⟩, rfl⟩
  · rintro ⟨⟨hwritten, hsound, hpath⟩, rfl⟩
    exact ⟨_, ⟨hwritten, rfl⟩, _, ⟨⟨hsound, hpath⟩, rfl⟩, _, ⟨hpath, rfl⟩, rfl⟩

/-- What a rule finds in some lines are the findings of its hits, if it is for the file. -/
theorem findings_eq_ok_iff {lines : List (List Char)} {fs : List Finding} :
    r.findings now path lines = .ok fs ↔
      (r.appliesTo path.readable = .ok false ∧ fs = []) ∨
        r.appliesTo path.readable = .ok true ∧
          (∀ h ∈ r.hits lines, Finding.CanName r.id path) ∧
            (r.hits lines).map (r.findingOf now path) = fs := by
  rw [findings, bind_eq_ok_iff, Bool.exists_bool]
  simp only [Bool.false_eq_true, if_false, if_true, pure_eq_ok_iff,
    mapM_eq_ok_iff_of_answers fun _ _ => finding_eq_ok_iff, eq_comm (a := ([] : List Finding))]

end Rule

namespace SecretPattern

variable {p : SecretPattern} {now : Calendar.Moment} {path : RawText}

/-- The secrets of a pattern in the file of a path can be reported: their findings can have an id,
and what the findings say about the pattern can be written out. -/
structure CanReport (p : SecretPattern) (path : RawText) : Prop
    extends Finding.CanName p.id path where
  name : p.name.isWritable = true
  description : p.description.isWritable = true

/-- The finding of a secret on a line, if there can be one. -/
def findingOf (p : SecretPattern) (now : Calendar.Moment) (path : RawText) (line : Nat)
    (c : Detect.Candidate) : Finding :=
  let file := path.readable
  p.findingAs now (Finding.idText p.id.shown file (toString (line : Int))) file p.name.plain
    p.description.plain line c

/-- **A secret is reported** when that is possible for its pattern. -/
theorem finding_eq_ok_iff {line : Nat} {c : Detect.Candidate} {x : Finding} :
    p.finding now path line c = .ok x ↔ p.CanReport path ∧ p.findingOf now path line c = x := by
  simp only [finding, bind_eq_ok_iff, pure_eq_ok_iff, Value.asText_eq_ok_iff,
    Finding.idOf_eq_ok_iff, RawText.encoded_eq_ok_iff]
  constructor
  · rintro ⟨_, ⟨hwritten, rfl⟩, _, ⟨⟨hsound, hpath⟩, rfl⟩, _, ⟨-, rfl⟩, _, ⟨hname, rfl⟩, _,
      ⟨hdescription, rfl⟩, rfl⟩
    exact ⟨⟨⟨hwritten, hsound, hpath⟩, hname, hdescription⟩, rfl⟩
  · rintro ⟨⟨⟨hwritten, hsound, hpath⟩, hname, hdescription⟩, rfl⟩
    exact ⟨_, ⟨hwritten, rfl⟩, _, ⟨⟨hsound, hpath⟩, rfl⟩, _, ⟨hpath, rfl⟩, _, ⟨hname, rfl⟩, _,
      ⟨hdescription, rfl⟩, rfl⟩

end SecretPattern

/-- What is found on a line are the findings of the secrets there. -/
theorem Detect.SecretScan.findingsOn_eq_ok_iff {s : SecretScan} {now : Calendar.Moment}
    {path : RawText} {number : Nat} {line : List Char} {fs : List Finding} :
    s.findingsOn now path number line = .ok fs ↔
      (∀ pc ∈ s.candidatesOn line, pc.1.CanReport path) ∧
        ((s.candidatesOn line).map fun pc => pc.1.findingOf now path number pc.2) = fs :=
  mapM_eq_ok_iff_of_answers fun _ _ => SecretPattern.finding_eq_ok_iff

end SecurityAudit
