import Mathlib.Data.List.Basic
import SecurityAudit.Proofs.OrderIndependence

/-!
# A text and its bytes are read alike

A file comes as a text or as the bytes of a text in UTF-8, and it is the same source file either
way: the bytes of a text are always valid, and they hold a zero where the text does.  What may
differ is whether that zero is found, since it is looked for among the first characters of a text
and among the first bytes of bytes.

A text hides its first zero when the characters before it are few enough and their bytes are not
(`SourceFile.hidesZero`).  Such a text is turned down and its bytes are read; every other text is
read like its bytes, and a run on the bytes is the run on the texts (`Audit.run_encoded`).
-/

namespace SecurityAudit

/-- An item is among the first ones of a list when it first comes after fewer of them. -/
theorem mem_take_iff {α : Type} [DecidableEq α] (a : α) (l : List α) (n : Nat) :
    a ∈ l.take n ↔ (l.takeWhile (· != a)).length < min l.length n := by
  induction l generalizing n with
  | nil => simp
  | cons x l ih =>
      cases n with
      | zero => simp
      | succ n =>
          by_cases h : x = a
          · simp [h]
          · have hne : a ≠ x := fun heq => h heq.symm
            simp only [List.take_succ_cons, List.mem_cons, hne, false_or, ih,
              List.takeWhile_cons, bne_iff_ne.mpr h, if_true, List.length_cons]
            omega

namespace Text

/-! ## The bytes of a text -/

theorem toList_loop (bs : ByteArray) (i : Nat) (done : List UInt8) :
    ByteArray.toList.loop bs i done = done.reverse ++ bs.data.toList.drop i := by
  fun_induction ByteArray.toList.loop bs i done with
  | case1 i done h ih =>
      have hi : i < bs.data.toList.length := by simpa using h
      have hbyte : bs.get! i = bs.data.toList[i] := by simp [ByteArray.get!, h]
      rw [ih, List.reverse_cons, List.append_assoc, List.drop_eq_getElem_cons hi, hbyte]
      rfl
  | case2 i done h =>
      have hi : bs.data.toList.length ≤ i := by simpa using h
      rw [List.drop_eq_nil_of_le hi, List.append_nil]

/-- The bytes of a text are those of its characters, one after another. -/
theorem utf8Bytes_eq (cs : List Char) : utf8Bytes cs = cs.flatMap String.utf8EncodeChar := by
  rw [utf8Bytes, String.toUTF8_eq_toByteArray, String.toByteArray_ofList, ByteArray.toList,
    toList_loop, List.reverse_nil, List.nil_append, List.drop_zero, List.utf8Encode,
    List.toList_data_toByteArray]

theorem utf8Bytes_cons (c : Char) (cs : List Char) :
    utf8Bytes (c :: cs) = String.utf8EncodeChar c ++ utf8Bytes cs := by
  simp only [utf8Bytes_eq, List.flatMap_cons]

/-- A text has no more characters than bytes. -/
theorem length_le_length_utf8Bytes (cs : List Char) : cs.length ≤ (utf8Bytes cs).length := by
  induction cs with
  | nil => exact Nat.zero_le _
  | cons c cs ih =>
      have hpos := c.utf8Size_pos
      simp only [utf8Bytes_cons, List.length_append, String.length_utf8EncodeChar,
        List.length_cons]
      omega

/-- **The bytes of a text are valid**, and stand for the text. -/
theorem decode?_utf8Bytes (cs : List Char) : Encoding.utf8.decode? (utf8Bytes cs) = some cs := by
  have hbytes : (⟨(utf8Bytes cs).toArray⟩ : ByteArray) = (String.ofList cs).toByteArray := by
    refine ByteArray.ext (Array.toList_inj.mp ?_)
    rw [String.toByteArray_ofList, List.utf8Encode, List.toList_data_toByteArray, utf8Bytes_eq]
  have hvalid := (String.ofList cs).isValidUTF8
  simp only [Encoding.decode?, hbytes, String.fromUTF8?, hvalid, dif_pos, Option.map_some]
  exact congrArg some String.toList_ofList

theorem zero_eq_ofNat_iff (n : Nat) : (0 : UInt8) = UInt8.ofNat n ↔ n % 256 = 0 := by
  rw [← UInt8.toNat_inj, UInt8.toNat_zero, UInt8.toNat_ofNat']
  exact eq_comm

/-- Only a zero has a zero among its bytes. -/
theorem zero_mem_utf8EncodeChar_iff (c : Char) :
    0 ∈ String.utf8EncodeChar c ↔ c = Char.ofNat 0 := by
  have hchar : c = Char.ofNat 0 ↔ c.val.toNat = 0 := by
    rw [← Char.toNat_inj]
    rfl
  rw [hchar]
  -- In a form of more than one byte every byte has its highest bit set.
  fun_cases String.utf8EncodeChar <;>
    simp only [List.mem_cons, List.not_mem_nil, or_false, zero_eq_ofNat_iff] <;>
    omega

/-- The bytes before the first zero byte are those of the characters before the first zero. -/
theorem takeWhile_utf8Bytes (cs : List Char) :
    (utf8Bytes cs).takeWhile (· != 0) = utf8Bytes (cs.takeWhile (· != Char.ofNat 0)) := by
  induction cs with
  | nil => simp [utf8Bytes_eq]
  | cons c cs ih =>
      by_cases hc : c = Char.ofNat 0
      · have hzero : String.utf8EncodeChar (Char.ofNat 0) = [0] := rfl
        simp [hc, utf8Bytes_eq, hzero]
      · have hbytes : ∀ b ∈ String.utf8EncodeChar c, (b != 0) = true := by
          intro b hb
          refine bne_iff_ne.mpr ?_
          rintro rfl
          exact hc ((zero_mem_utf8EncodeChar_iff c).mp hb)
        rw [utf8Bytes_cons, List.takeWhile_append_of_pos hbytes, ih, List.takeWhile_cons,
          if_pos (bne_iff_ne.mpr hc), utf8Bytes_cons]

end Text

/-! ## Reading a text and reading its bytes -/

namespace SourceFile

/-- The source file of a text. -/
def ofText (path : String) (cs : List Char) : SourceFile where
  path := path
  lines := Text.lines cs
  language := languageOf path

/-- The characters before the first zero of a text. -/
def beforeZero (cs : List Char) : List Char :=
  cs.takeWhile (· != Char.ofNat 0)

/-- A text hides its first zero: it comes early enough among the characters to be found, and not
among the bytes. -/
def hidesZero (cs : List Char) : Bool :=
  (beforeZero cs).length < min cs.length sniffed &&
    sniffed ≤ (Text.utf8Bytes (beforeZero cs)).length

/-- A text is read unless it has a zero among the first characters. -/
theorem read_text (path : String) (cs : List Char) :
    read .utf8 path (.text cs) =
      if (beforeZero cs).length < min cs.length sniffed then .error (.binary path)
      else .ok (ofText path cs) := by
  have hzero : Char.ofNat 0 ∈ cs.take sniffed ↔ (beforeZero cs).length < min cs.length sniffed :=
    mem_take_iff _ cs sniffed
  simp only [read, textOf, List.contains_iff_mem, hzero]
  split <;> rfl

/-- The bytes of a text are read as the text unless they have a zero among the first bytes. -/
theorem read_utf8Bytes (path : String) (cs : List Char) :
    read .utf8 path (.bytes (Text.utf8Bytes cs)) =
      if (Text.utf8Bytes (beforeZero cs)).length < min (Text.utf8Bytes cs).length sniffed then
        .error (.binary path)
      else .ok (ofText path cs) := by
  have hzero := mem_take_iff 0 (Text.utf8Bytes cs) sniffed
  rw [Text.takeWhile_utf8Bytes, ← beforeZero] at hzero
  simp only [read, textOf, List.contains_iff_mem, hzero, Text.decode?_utf8Bytes]
  split <;> rfl

/-- There is a zero after the characters before the first one, or after their bytes, when there is
one at all. -/
theorem length_beforeZero_lt_iff (cs : List Char) :
    (Text.utf8Bytes (beforeZero cs)).length < (Text.utf8Bytes cs).length ↔
      (beforeZero cs).length < cs.length := by
  obtain ⟨rest, hrest⟩ : ∃ rest, beforeZero cs ++ rest = cs := List.takeWhile_prefix _
  have hbytes : Text.utf8Bytes cs = Text.utf8Bytes (beforeZero cs) ++ Text.utf8Bytes rest := by
    conv_lhs => rw [← hrest]
    simp only [Text.utf8Bytes_eq, List.flatMap_append]
  have hlength : cs.length = (beforeZero cs).length + rest.length := by
    conv_lhs => rw [← hrest]
    exact List.length_append
  have hle := Text.length_le_length_utf8Bytes rest
  have hnil : rest.length = 0 → (Text.utf8Bytes rest).length = 0 := by
    intro h
    rw [List.eq_nil_of_length_eq_zero h, Text.utf8Bytes_eq]
    rfl
  rw [hbytes, List.length_append, hlength]
  omega

/-- A text that hides its first zero is turned down, and its bytes are read. -/
theorem read_of_hidesZero {cs : List Char} (h : hidesZero cs = true) (path : String) :
    read .utf8 path (.text cs) = .error (.binary path) ∧
      read .utf8 path (.bytes (Text.utf8Bytes cs)) = .ok (ofText path cs) := by
  simp only [hidesZero, Bool.and_eq_true, decide_eq_true_eq] at h
  obtain ⟨hearly, hlate⟩ := h
  rw [read_text, read_utf8Bytes, if_pos hearly, if_neg (by omega)]
  exact ⟨rfl, rfl⟩

/-- A text that hides no zero is read like its bytes. -/
theorem read_utf8Bytes_of_not_hidesZero {cs : List Char} (h : hidesZero cs = false)
    (path : String) :
    read .utf8 path (.bytes (Text.utf8Bytes cs)) = read .utf8 path (.text cs) := by
  have hsame : (Text.utf8Bytes (beforeZero cs)).length < min (Text.utf8Bytes cs).length sniffed ↔
      (beforeZero cs).length < min cs.length sniffed := by
    have hrest := length_beforeZero_lt_iff cs
    have hle := Text.length_le_length_utf8Bytes (beforeZero cs)
    simp only [hidesZero, Bool.and_eq_false_iff, decide_eq_false_iff_not] at h
    omega
  simp only [read_text, read_utf8Bytes, hsame]

/-- **A text is read like its bytes** unless it hides its first zero. -/
theorem read_utf8Bytes_eq_iff (path : String) (cs : List Char) :
    read .utf8 path (.bytes (Text.utf8Bytes cs)) = read .utf8 path (.text cs) ↔
      hidesZero cs = false := by
  refine ⟨fun heq => ?_, fun h => read_utf8Bytes_of_not_hidesZero h path⟩
  cases h : hidesZero cs with
  | false => rfl
  | true =>
      obtain ⟨htext, hbytes⟩ := read_of_hidesZero h path
      rw [htext, hbytes] at heq
      cases heq

end SourceFile

/-! ## Runs on files with other contents -/

/-- The target with another content, if it is a file. -/
def Target.mapContent (g : Content → Content) : Target → Target
  | .file path content => .file path (g content)
  | .policy label source => .policy label source

variable {g : Content → Content}

@[simp]
theorem Target.kind_mapContent (t : Target) : (t.mapContent g).kind = t.kind := by
  cases t <;> rfl

@[simp]
theorem Target.label_mapContent (t : Target) : (t.mapContent g).label = t.label := by
  cases t <;> rfl

namespace Audit

/-- The request with other contents of the files. -/
def Request.mapContent (g : Content → Content) (r : Request) : Request :=
  { r with files := r.files.map fun f => (f.1, g f.2) }

/-- The queue with other contents of the files. -/
def Queue.mapContent (g : Content → Content) (q : Queue) : Queue :=
  { q with targets := q.targets.map (Target.mapContent g) }

/-- The targets with other contents of the files, with the outcomes that they have. -/
def mapContents (g : Content → Content) (outcomes : List (Target × Outcome)) :
    List (Target × Outcome) :=
  outcomes.map fun p => (p.1.mapContent g, p.2)

variable {a : Audit} {occasion : Occasion}

/-- Where a file goes does not depend on what it holds. -/
theorem ofFile_mapContent (path : String) (content : Content) :
    Queue.ofFile a path (g content) =
      (Queue.ofFile a path content).map (Queue.mapContent g) := by
  simp only [Queue.ofFile]
  cases Exclusion.covers a.settings.scan.exclusions path with
  | error r => rfl
  | ok covered =>
      cases covered with
      | true => rfl
      | false =>
          simp only [bind, Except.bind, Bool.false_eq_true, if_false]
          split <;> rfl

/-- Where a policy goes does not depend on what files hold. -/
theorem mapContent_ofPolicy (index : Nat) (source : PolicySource) :
    (Queue.ofPolicy a index source).mapContent g = Queue.ofPolicy a index source := by
  simp only [Queue.ofPolicy]
  cases a.review <;> rfl

theorem mapContent_joined (qs : List Queue) :
    (Queue.joined qs).mapContent g = Queue.joined (qs.map (Queue.mapContent g)) := by
  simp only [Queue.joined, Queue.mapContent, List.map_flatMap, List.flatMap_map]

/-- The queue of a request with other contents is the queue with other contents. -/
theorem ofRequest_mapContent (request : Request) :
    Queue.ofRequest a (request.mapContent g) =
      (Queue.ofRequest a request).map (Queue.mapContent g) := by
  have hfiles : (request.mapContent g).files.mapM (fun f => Queue.ofFile a f.1 f.2) =
      (request.files.mapM fun f => Queue.ofFile a f.1 f.2).map (List.map (Queue.mapContent g)) := by
    rw [Request.mapContent, List.mapM_map]
    have hfile (f : String × Content) : Queue.ofFile a f.1 (g f.2) =
        (Queue.ofFile a f.1 f.2).map (Queue.mapContent g) := ofFile_mapContent f.1 f.2
    exact mapM_eq_map hfile request.files
  have hpolicies : (request.policies.zipIdx.map fun p => Queue.ofPolicy a p.2 p.1).map
      (Queue.mapContent g) = request.policies.zipIdx.map fun p => Queue.ofPolicy a p.2 p.1 := by
    simp only [List.map_map, Function.comp_def, mapContent_ofPolicy]
  have hsame : (request.mapContent g).policies = request.policies := rfl
  rw [Queue.ofRequest_eq, Queue.ofRequest_eq, hfiles, hsame]
  cases request.files.mapM fun f => Queue.ofFile a f.1 f.2 with
  | error r => rfl
  | ok qs =>
      cases Queue.checkNames request.policies with
      | error r => rfl
      | ok u =>
          simp only [Except.map, bind, Except.bind, pure, Except.pure, mapContent_joined,
            List.map_append, hpolicies]

/-- Reading the other content of a file gives what reading the file does. -/
def ReadsAlike (g : Content → Content) : Prop :=
  ∀ path content, SourceFile.read .utf8 path (g content) = SourceFile.read .utf8 path content

theorem scan_mapContent (hg : ReadsAlike g) (b : Budget) (t : Target) :
    a.scan b (t.mapContent g) = a.scan b t := by
  cases t with
  | file path content =>
      simp only [scan, Target.mapContent, scanFile, hg path, Target.kind, Target.label]
  | policy label source => rfl

theorem attend_mapContent (hg : ReadsAlike g) (r : Resources) (t : Target) :
    a.attend occasion r (t.mapContent g) = a.attend occasion r t := by
  have hkeeps : keepsWorker occasion r.budget (t.mapContent g) =
      keepsWorker occasion r.budget t := by
    cases t with
    | file path content => simp only [keepsWorker, Target.mapContent, hg path]
    | policy label source => rfl
  simp only [attend, hkeeps, scan_mapContent hg]

/-- The targets with other contents are seen to as they are. -/
theorem attendAll_mapContent (hg : ReadsAlike g) (r : Resources) (ts : List Target) :
    a.attendAll occasion r (ts.map (Target.mapContent g)) =
      (a.attendAll occasion r ts).map fun result => (mapContents g result.1, result.2) := by
  induction ts generalizing r with
  | nil => rfl
  | cons t ts ih =>
      simp only [List.map_cons, attendAll, attend_mapContent hg, ih]
      cases a.attend occasion r t with
      | error e => rfl
      | ok first =>
          simp only [bind, Except.bind]
          cases a.attendAll occasion first.2 ts with
          | error e => rfl
          | ok rest => rfl

/-- What the report says does not depend on what the files hold, but on the outcomes. -/
theorem reportOn_mapContent (request : Request) (queue : Queue)
    (outcomes : List (Target × Outcome)) (b : Budget) :
    a.reportOn occasion (request.mapContent g) (queue.mapContent g) (mapContents g outcomes) b =
      a.reportOn occasion request queue outcomes b := by
  -- Whatever is asked of an outcome looks at most at the kind and at the label of its target.
  have hfound : (foundOf? ∘ fun p : Target × Outcome => (p.1.mapContent g, p.2)) = foundOf? := by
    funext ⟨t, outcome⟩
    cases outcome <;> rfl
  have hwarning (timeout : Value) : (warningOf? timeout ∘
      fun p : Target × Outcome => (p.1.mapContent g, p.2)) = warningOf? timeout := by
    funext ⟨t, outcome⟩
    cases outcome <;> cases t <;> rfl
  have hscanned (kind : String) : (isScanned kind ∘
      fun p : Target × Outcome => (p.1.mapContent g, p.2)) = isScanned kind := by
    funext ⟨t, outcome⟩
    cases outcome <;> cases t <;> rfl
  have htimedOut : (isTimedOut ∘ fun p : Target × Outcome => (p.1.mapContent g, p.2)) =
      isTimedOut := by
    funext ⟨t, outcome⟩
    cases outcome <;> rfl
  simp only [reportOn, circumstances, mapContents, List.filterMap_map, List.countP_map,
    List.any_map, hfound, hwarning, hscanned, htimedOut]
  rfl

/-- **A run does not depend on how the files are given**, as long as they are read alike. -/
theorem run_mapContent (hg : ReadsAlike g) (request : Request) :
    a.run occasion (request.mapContent g) = a.run occasion request := by
  simp only [run, ofRequest_mapContent]
  cases Queue.ofRequest a request with
  | error r => rfl
  | ok queue =>
      have hfilled (q : Queue) : (allowing (.ok q) : Except (Fault Problem) Queue) = pure q := rfl
      have htargets : (queue.mapContent g).targets = queue.targets.map (Target.mapContent g) := rfl
      have hlength : (queue.targets.map (Target.mapContent g)).length = queue.targets.length :=
        List.length_map _
      simp only [Except.map, hfilled, pure_bind, htargets, hlength,
        checkTimeout_eq_of_length hlength, attendAll_mapContent hg]
      refine bind_congr fun b => bind_congr fun workers => bind_congr fun _ => ?_
      cases a.attendAll occasion ⟨workers, b⟩ queue.targets with
      | error e => rfl
      | ok result => exact congrArg allowing (reportOn_mapContent request queue result.1 result.2)

end Audit

/-! ## Texts given as bytes -/

/-- The bytes of a text; what is no text stays as it is. -/
def Content.encoded : Content → Content
  | .text cs => .bytes (Text.utf8Bytes cs)
  | .bytes bs => .bytes bs
  | .other v => .other v

/-- The bytes of a text that hides no zero; everything else stays as it is. -/
def Content.encodedAlike : Content → Content
  | .text cs => if SourceFile.hidesZero cs then .text cs else .bytes (Text.utf8Bytes cs)
  | .bytes bs => .bytes bs
  | .other v => .other v

namespace Audit

/-- The request with the bytes of every text. -/
def Request.encoded (r : Request) : Request :=
  r.mapContent Content.encoded

theorem readsAlike_encodedAlike : ReadsAlike Content.encodedAlike := by
  intro path content
  cases content with
  | text cs =>
      simp only [Content.encodedAlike]
      split
      next => rfl
      next h => exact SourceFile.read_utf8Bytes_of_not_hidesZero (Bool.eq_false_iff.mpr h) path
  | bytes bs => rfl
  | other v => rfl

/-- When no text hides a zero, giving bytes is giving what is read alike. -/
theorem Request.encoded_eq {request : Request}
    (h : ∀ path cs, (path, .text cs) ∈ request.files → SourceFile.hidesZero cs = false) :
    request.encoded = request.mapContent Content.encodedAlike := by
  have hfiles : (request.files.map fun f => (f.1, f.2.encoded)) =
      request.files.map fun f => (f.1, f.2.encodedAlike) := by
    refine List.map_congr_left fun f hf => ?_
    obtain ⟨path, content⟩ := f
    cases content with
    | text cs => simp [Content.encoded, Content.encodedAlike, h path cs hf]
    | bytes bs => rfl
    | other v => rfl
  rw [encoded, mapContent, mapContent, hfiles]

/-- **A text and its bytes.**  They are read alike, whatever the path, if and only if the text does
not hide its first zero: a text that does is turned down as binary, and its bytes are read.  A run
on the bytes of texts that hide no zero is the run on the texts. -/
theorem run_encoded (path : String) (cs : List Char) (a : Audit) (occasion : Occasion)
    (request : Request) :
    (SourceFile.read .utf8 path (Content.encoded (.text cs)) =
      SourceFile.read .utf8 path (.text cs) ↔ SourceFile.hidesZero cs = false) ∧
    (SourceFile.hidesZero cs = true →
      SourceFile.read .utf8 path (.text cs) = .error (.binary path) ∧
        SourceFile.read .utf8 path (Content.encoded (.text cs)) =
          .ok (SourceFile.ofText path cs)) ∧
    ((∀ name text, (name, .text text) ∈ request.files → SourceFile.hidesZero text = false) →
      a.run occasion request.encoded = a.run occasion request) := by
  refine ⟨SourceFile.read_utf8Bytes_eq_iff path cs,
    fun hhides => SourceFile.read_of_hidesZero hhides path, fun h => ?_⟩
  rw [Request.encoded_eq h]
  exact run_mapContent readsAlike_encodedAlike request

namespace Shelf

/-- Some letters of two bytes, and then a zero. -/
def zeroAfter (n : Nat) : List Char :=
  List.replicate n 'é' ++ [Char.ofNat 0]

/-- The zero is hidden after 4000 letters or more, and found by no one after 8000. -/
theorem hidesZero_zeroAfter (n : Nat) :
    SourceFile.hidesZero (zeroAfter n) = true ↔ 4000 ≤ n ∧ n < 8000 := by
  have hbefore : SourceFile.beforeZero (zeroAfter n) = List.replicate n 'é' := by
    rw [SourceFile.beforeZero, zeroAfter, List.takeWhile_append_of_pos]
    · simp
    · intro c hc
      rw [List.eq_of_mem_replicate hc]
      rfl
  have hbytes : (Text.utf8Bytes (List.replicate n 'é')).length = n * 2 := by
    have hletter : (String.utf8EncodeChar 'é').length = 2 := rfl
    rw [Text.utf8Bytes_eq, List.length_flatMap, List.map_replicate, List.sum_replicate_nat, hletter]
  have hlength : (zeroAfter n).length = n + 1 := by simp [zeroAfter]
  simp only [SourceFile.hidesZero, hbefore, hbytes, hlength, SourceFile.sniffed,
    List.length_replicate, Bool.and_eq_true, decide_eq_true_eq]
  omega

/-- A file with a letter of two bytes. -/
def accented : Request where
  files := [("a.txt", .text ['z', 'a', 'p', 'é'])]

end Shelf

/-- The file with a letter of two bytes has the same report when it is given as bytes, and the
late zero is found only in the text. -/
theorem run_encoded_accented :
    (∃ report, (Shelf.audit []).run { id := "1" } Shelf.accented.encoded = .ok report ∧
      (Shelf.audit []).run { id := "1" } Shelf.accented = .ok report ∧
      report.findings.length = 2) ∧
    SourceFile.read .utf8 "a.txt" (.text (Shelf.zeroAfter 4000)) = .error (.binary "a.txt") ∧
    SourceFile.read .utf8 "a.txt" (Content.encoded (.text ['é'])) =
      SourceFile.read .utf8 "a.txt" (.text ['é']) := by
  have hrun : (((Shelf.audit []).run { id := "1" } Shelf.accented).toOption.any fun report =>
      report.findings.length == 2) = true := by
    simp only [Audit.run, Report.aggregate, Finding.sorted, Report.sortedSuppressions,
      circumstances, Sorting.mergeSort_eq_sortWithin]
    decide +kernel
  obtain ⟨report, hreport, htwo⟩ := any_toOption_iff.mp hrun
  have hplain : ∀ path cs, (path, .text cs) ∈ Shelf.accented.files →
      SourceFile.hidesZero cs = false := by
    intro path cs hmem
    cases List.mem_singleton.mp hmem
    rfl
  have hzero : SourceFile.hidesZero (Shelf.zeroAfter 4000) = true :=
    (Shelf.hidesZero_zeroAfter 4000).mpr (by decide)
  obtain ⟨-, hhidden, hruns⟩ := run_encoded "a.txt" (Shelf.zeroAfter 4000) (Shelf.audit [])
    { id := "1" } Shelf.accented
  obtain ⟨hread, -, -⟩ := run_encoded "a.txt" ['é'] (Shelf.audit []) { id := "1" } Shelf.accented
  have hreport' := hruns hplain
  rw [hreport] at hreport'
  exact ⟨⟨report, hreport', hreport, eq_of_beq htwo⟩, (hhidden hzero).1, hread.mpr rfl⟩

/-- **A text is turned down and its bytes are read** when it hides its first zero. -/
theorem exists_text_turned_down :
    ∃ path cs f, SourceFile.read .utf8 path (.text cs) = .error (.binary path) ∧
      SourceFile.read .utf8 path (.bytes (Text.utf8Bytes cs)) = .ok f :=
  have hhidden := (Shelf.hidesZero_zeroAfter 4000).mpr (by decide)
  have ⟨htext, hbytes⟩ := SourceFile.read_of_hidesZero hhidden "a.txt"
  ⟨_, _, _, htext, hbytes⟩

end Audit

end SecurityAudit
