/-
  What the digest of a journal identifies (`PatchJournal.patch_digest` of `vad/repo/journal.py`).

  1. **Stream** (`patchStream`) — the records of the files one after the other, in the order of their
     paths, each with its path, a flag and its content, parted and ended by NUL bytes.

  2. **Reading** (`record_inj`) — a path has no NUL, so the path and the flag of the first record can
     be read off the stream; only where the content ends is not written down.

  3. **Result** (`digestIdentifies_iff`) — the order of the capture never matters, and the stream
     belongs to one set of snapshots exactly if at most the last file existed and its content does
     not look like records of later files (`ShowsRecord`).
-/
import Vad.Repo.PatchApply

namespace Vad

open Files (Paths Disk)

/-! ## The stream -/

/-- What `patch_digest` feeds to the hash. -/
def patchStream (snapshots : List FileSnapshot) : ByteArray :=
  (snapshots.insertionSort (fun a b => a.path ≤ b.path)).foldl
    (fun bytes s => bytes ++ s.digestBytes) ⟨#[]⟩

abbrev Bytes : Type := List UInt8

def pathBytes (path : String) : Bytes := path.toUTF8.data.toList

/-- The bytes of `snapshot.content or b""`. -/
def FileSnapshot.contentBytes (s : FileSnapshot) : Bytes := (s.content.getD ⟨#[]⟩).data.toList

/-- `b"1"` or `b"0"`. -/
def FileSnapshot.flag (s : FileSnapshot) : UInt8 := if s.existed then 49 else 48

/-- The bytes of one file. -/
def FileSnapshot.record (s : FileSnapshot) : Bytes :=
  pathBytes s.path ++ 0 :: s.flag :: 0 :: (s.contentBytes ++ [0])

/-- The bytes of the files one after the other. -/
def recordsOf (l : List FileSnapshot) : Bytes := l.flatMap FileSnapshot.record

theorem digestBytes_eq (s : FileSnapshot) : s.digestBytes.data.toList = s.record := by
  have hone : "1".toUTF8.data.toList = [49] := by decide
  have hzero : "0".toUTF8.data.toList = [48] := by decide
  unfold FileSnapshot.digestBytes FileSnapshot.record FileSnapshot.flag FileSnapshot.contentBytes
    pathBytes
  cases s.existed <;>
    simp only [ByteArray.data_append, Array.toList_append, hone, hzero, List.append_assoc,
      if_true, if_false, Bool.false_eq_true, List.cons_append, List.nil_append]

theorem stream_eq (l : List FileSnapshot) :
    (l.foldl (fun bytes s => bytes ++ s.digestBytes) ⟨#[]⟩ : ByteArray).data.toList =
      recordsOf l := by
  have hfrom (bytes : ByteArray) :
      (l.foldl (fun bytes s => bytes ++ s.digestBytes) bytes).data.toList =
        bytes.data.toList ++ recordsOf l := by
    induction l generalizing bytes with
    | nil => exact (List.append_nil _).symm
    | cons s l ih =>
      rw [List.foldl_cons, ih, ByteArray.data_append, Array.toList_append, digestBytes_eq,
        List.append_assoc]
      rfl
  exact hfrom _

/-! ## Captured snapshots -/

/-- What a snapshot is when `capture` takes it: there is a content exactly if there was a file, and
    no NUL is in the path. -/
structure FileSnapshot.IsCapture (s : FileSnapshot) : Prop where
  content : s.content.isSome = s.existed
  plain : (0 : UInt8) ∉ pathBytes s.path

/-- Captured snapshots of distinct paths. -/
structure CapturedSet (snapshots : List FileSnapshot) : Prop where
  distinct : (snapshots.map FileSnapshot.path).Nodup
  captures : ∀ s ∈ snapshots, s.IsCapture

section Capture

variable {Loc : Type} {paths : Paths Loc} {d : Files.Disk Loc}

theorem captureFile_form {path : String} {s : FileSnapshot}
    (h : captureFile paths d path = .ok s) : s.path = path ∧ s.content.isSome = s.existed := by
  unfold captureFile at h
  split at h
  · cases h
  · split at h
    · split at h
      · cases h
        exact ⟨rfl, rfl⟩
      · cases h
    · cases h
      exact ⟨rfl, rfl⟩

/-- `capture` makes such a set of any distinct paths without NUL. -/
theorem capture_captured {files : List String} {snapshots : List FileSnapshot}
    (hfiles : files.Nodup) (hplain : ∀ path ∈ files, (0 : UInt8) ∉ pathBytes path)
    (h : capture paths d files = .ok snapshots) : CapturedSet snapshots := by
  have hform : snapshots.map FileSnapshot.path = files ∧
      ∀ s ∈ snapshots, s.content.isSome = s.existed := by
    clear hfiles hplain
    induction files generalizing snapshots with
    | nil =>
      cases h
      exact ⟨rfl, fun s hs => nomatch hs⟩
    | cons path rest ih =>
      unfold capture at h
      cases hfirst : captureFile paths d path with
      | error e =>
        rw [hfirst] at h
        cases h
      | ok s =>
        cases hrest : capture paths d rest with
        | error e =>
          rw [hfirst, hrest] at h
          cases h
        | ok others =>
          rw [hfirst, hrest] at h
          cases h
          obtain ⟨hpath, hcontent⟩ := captureFile_form hfirst
          obtain ⟨hpaths, hcontents⟩ := ih hrest
          refine ⟨?_, List.forall_mem_cons.mpr ⟨hcontent, hcontents⟩⟩
          rw [List.map_cons, hpath, hpaths]
  refine ⟨hform.1 ▸ hfiles, fun s hs => ⟨hform.2 s hs, hplain s.path ?_⟩⟩
  rw [← hform.1]
  exact List.mem_map_of_mem hs

end Capture

/-! ## Reading a record -/

/-- What stands before the first NUL of two texts is the same if the texts are. -/
theorem before_nul {a b r r' : Bytes} (ha : (0 : UInt8) ∉ a) (hb : (0 : UInt8) ∉ b)
    (h : a ++ 0 :: r = b ++ 0 :: r') : a = b ∧ r = r' := by
  rcases List.append_eq_append_iff.mp h with ⟨more, rfl, hmore⟩ | ⟨more, rfl, hmore⟩
  · cases more with
    | nil => exact ⟨(List.append_nil a).symm, (List.cons.inj hmore).2⟩
    | cons x more =>
      obtain ⟨rfl, -⟩ := List.cons.inj hmore
      exact absurd (List.mem_append_right a (List.mem_cons_self ..)) hb
  · cases more with
    | nil => exact ⟨List.append_nil b, (List.cons.inj hmore).2.symm⟩
    | cons x more =>
      obtain ⟨rfl, -⟩ := List.cons.inj hmore
      exact absurd (List.mem_append_right b (List.mem_cons_self ..)) ha

theorem pathBytes_injective : Function.Injective pathBytes := by
  intro a b h
  have hbytes : a.toUTF8 = b.toUTF8 := ByteArray.ext (Array.ext' h)
  have hencoded : Files.encode a.toList = Files.encode b.toList := by
    unfold Files.encode
    rw [String.ofList_toList, String.ofList_toList, hbytes]
  exact String.toList_injective (Files.encode_injective hencoded)

theorem flag_inj {s s' : FileSnapshot} (h : s.flag = s'.flag) : s.existed = s'.existed := by
  unfold FileSnapshot.flag at h
  cases hs : s.existed <;> cases hs' : s'.existed <;> rw [hs, hs'] at h <;> first | rfl | cases h

/-- The path and the flag can be read off; how far the content goes cannot. -/
theorem record_inj {s s' : FileSnapshot} {r r' : Bytes} (hs : s.IsCapture) (hs' : s'.IsCapture)
    (h : s.record ++ r = s'.record ++ r') : s.path = s'.path ∧ s.existed = s'.existed ∧
      s.contentBytes ++ 0 :: r = s'.contentBytes ++ 0 :: r' := by
  unfold FileSnapshot.record at h
  simp only [List.append_assoc, List.cons_append, List.nil_append] at h
  obtain ⟨hpath, hrest⟩ := before_nul hs.plain hs'.plain h
  obtain ⟨hflag, hcontent⟩ := List.cons.inj hrest
  exact ⟨pathBytes_injective hpath, flag_inj hflag, (List.cons.inj hcontent).2⟩

theorem content_absent {s : FileSnapshot} (hs : s.IsCapture) (h : s.existed = false) :
    s.content = none := by
  have hcontent := hs.content
  rw [h] at hcontent
  exact Option.isSome_eq_false_iff.mp hcontent |> Option.isNone_iff_eq_none.mp

/-- A snapshot is determined by what is hashed of it. -/
theorem snapshot_ext {s s' : FileSnapshot} (hs : s.IsCapture) (hs' : s'.IsCapture)
    (hpath : s.path = s'.path) (hexisted : s.existed = s'.existed)
    (hbytes : s.contentBytes = s'.contentBytes) : s = s' := by
  have hcontent : s.content = s'.content := by
    have hsome := hs.content
    have hsome' := hs'.content
    unfold FileSnapshot.contentBytes at hbytes
    cases hc : s.content with
    | none =>
      rw [hc, hexisted, ← hsome'] at hsome
      exact (Option.isNone_iff_eq_none.mp (by simpa using hsome.symm)).symm
    | some c =>
      rw [hc, hexisted, ← hsome'] at hsome
      obtain ⟨c', hc'⟩ := Option.isSome_iff_exists.mp hsome.symm
      rw [hc, hc'] at hbytes
      rw [hc']
      exact congrArg some (ByteArray.ext (Array.ext' hbytes))
  obtain ⟨path, existed, content⟩ := s
  obtain ⟨path', existed', content'⟩ := s'
  obtain rfl : path = path' := hpath
  obtain rfl : existed = existed' := hexisted
  obtain rfl : content = content' := hcontent
  rfl

/-! ## Reading a stream -/

/-- The content looks as if it ended earlier, and as if the record of a later file came next: of one
    that is absent if the content ends there, else of one that exists. -/
def ShowsRecord (path : String) (content : Bytes) : Prop :=
  ∃ later front, path < later ∧ (0 : UInt8) ∉ pathBytes later ∧
    (content = front ++ 0 :: (pathBytes later ++ [0, 48, 0]) ∨
      ∃ rest, content = front ++ 0 :: (pathBytes later ++ 0 :: 49 :: 0 :: rest))

/-- Only the last file existed, if any, and its content shows no record. -/
def EndsPlainly (snapshots : List FileSnapshot) : Prop :=
  ∀ s ∈ snapshots, s.existed = true →
    (∀ t ∈ snapshots, t.path ≤ s.path) ∧ ¬ ShowsRecord s.path s.contentBytes

/-- The paths ascend. -/
def Ascending (l : List FileSnapshot) : Prop := l.Pairwise fun a b => a.path < b.path

theorem records_end {c : Bytes} (l : List FileSnapshot) :
    ∃ d, c ++ 0 :: recordsOf l = d ++ [0] := by
  induction l generalizing c with
  | nil => exact ⟨c, rfl⟩
  | cons s l ih =>
    obtain ⟨d, hd⟩ := @ih (c ++ 0 :: (pathBytes s.path ++ 0 :: s.flag :: 0 :: s.contentBytes))
    refine ⟨d, hd ▸ ?_⟩
    show c ++ 0 :: (s.record ++ recordsOf l) = _
    unfold FileSnapshot.record
    simp only [List.append_assoc, List.cons_append, List.nil_append]

/-- What can be read as a content and more records shows a record. -/
theorem showsRecord_of {path : String} {c front : Bytes} {l : List FileSnapshot} (hne : l ≠ [])
    (hl : ∀ s ∈ l, s.IsCapture) (hlater : ∀ s ∈ l, path < s.path)
    (h : c ++ [0] = front ++ 0 :: recordsOf l) : ShowsRecord path c := by
  induction l generalizing front with
  | nil => exact absurd rfl hne
  | cons s l ih =>
    obtain ⟨hs, hl⟩ := List.forall_mem_cons.mp hl
    obtain ⟨hpath, hlater⟩ := List.forall_mem_cons.mp hlater
    have hrecord : c ++ [0] =
        (front ++ 0 :: (pathBytes s.path ++ 0 :: s.flag :: 0 :: s.contentBytes)) ++
          0 :: recordsOf l := by
      rw [h]
      show front ++ 0 :: (s.record ++ recordsOf l) = _
      unfold FileSnapshot.record
      simp only [List.append_assoc, List.cons_append, List.nil_append]
    cases hexisted : s.existed with
    | true =>
      have hflag : s.flag = 49 := by unfold FileSnapshot.flag; rw [hexisted, if_pos rfl]
      obtain ⟨d, hd⟩ := @records_end s.contentBytes l
      refine ⟨s.path, front, hpath, hs.plain, Or.inr ⟨d, @List.append_cancel_right _ _ [0] _ ?_⟩⟩
      rw [hrecord, hflag]
      simp only [List.append_assoc, List.cons_append, hd]
    | false =>
      have hflag : s.flag = 48 := by
        unfold FileSnapshot.flag
        rw [hexisted, if_neg (by decide)]
      have hcontent : s.contentBytes = [] := by
        unfold FileSnapshot.contentBytes
        rw [content_absent hs hexisted]
        rfl
      rw [hflag, hcontent] at hrecord
      by_cases hnil : l = []
      · subst hnil
        exact ⟨s.path, front, hpath, hs.plain, Or.inl (List.append_cancel_right hrecord)⟩
      · -- the absent file is taken for a part of the content
        exact ih hnil hl hlater hrecord

/-- The stream of a set that ends plainly belongs to no other. -/
theorem eq_of_records {l l' : List FileSnapshot} (hl : ∀ s ∈ l, s.IsCapture)
    (hl' : ∀ s ∈ l', s.IsCapture) (hasc : Ascending l) (hasc' : Ascending l')
    (hplain : EndsPlainly l) (h : recordsOf l' = recordsOf l) : l' = l := by
  induction l generalizing l' with
  | nil =>
    cases l' with
    | nil => rfl
    | cons s' l' =>
      have hrecord : s'.record = [] := (List.append_eq_nil_iff.mp h).1
      unfold FileSnapshot.record at hrecord
      exact absurd (List.append_eq_nil_iff.mp hrecord).2 (List.cons_ne_nil _ _)
  | cons s l ih =>
    obtain ⟨hs, hcaptures⟩ := List.forall_mem_cons.mp hl
    obtain ⟨hlater, hrest⟩ := List.pairwise_cons.mp hasc
    cases l' with
    | nil =>
      have hrecord : s.record = [] := (List.append_eq_nil_iff.mp h.symm).1
      unfold FileSnapshot.record at hrecord
      exact absurd (List.append_eq_nil_iff.mp hrecord).2 (List.cons_ne_nil _ _)
    | cons s' l' =>
      obtain ⟨hs', hcaptures'⟩ := List.forall_mem_cons.mp hl'
      obtain ⟨hlater', hrest'⟩ := List.pairwise_cons.mp hasc'
      obtain ⟨hpath, hexisted, hcontent⟩ := record_inj hs' hs h
      cases hflag : s.existed with
      | false =>
        have hnone := content_absent hs hflag
        have hnone' := content_absent hs' (hexisted.trans hflag)
        have hrecords : recordsOf l' = recordsOf l := by
          unfold FileSnapshot.contentBytes at hcontent
          rw [hnone, hnone'] at hcontent
          exact (List.cons.inj hcontent).2
        have hplain' : EndsPlainly l := fun t ht hexists => by
          obtain ⟨hmax, hshows⟩ := hplain t (List.mem_cons_of_mem s ht) hexists
          exact ⟨fun u hu => hmax u (List.mem_cons_of_mem s hu), hshows⟩
        rw [ih hcaptures hcaptures' hrest hrest' hplain' hrecords,
          snapshot_ext hs' hs hpath hexisted]
        unfold FileSnapshot.contentBytes
        rw [hnone, hnone']
      | true =>
        obtain ⟨hmax, hshows⟩ := hplain s (List.mem_cons_self ..) hflag
        obtain rfl : l = [] := by
          refine List.eq_nil_iff_forall_not_mem.mpr fun t ht => ?_
          exact absurd (hmax t (List.mem_cons_of_mem s ht)) (not_le.mpr (hlater t ht))
        by_cases hnil : l' = []
        · subst hnil
          rw [snapshot_ext hs' hs hpath hexisted (List.append_cancel_right hcontent)]
        · refine absurd (showsRecord_of hnil hcaptures' (fun t ht => ?_) hcontent.symm) hshows
          rw [← hpath]
          exact hlater' t ht

/-! ## Another set with the same stream -/

/-- A file with this content. -/
def existing (path : String) (content : Bytes) : FileSnapshot :=
  ⟨path, true, some ⟨content.toArray⟩⟩

/-- A file that was not there. -/
def absent (path : String) : FileSnapshot := ⟨path, false, none⟩

theorem record_existing (path : String) (content : Bytes) :
    (existing path content).record = pathBytes path ++ 0 :: 49 :: 0 :: (content ++ [0]) := by
  have hcontent : (existing path content).contentBytes = content := List.toList_toArray
  unfold FileSnapshot.record
  rw [hcontent]
  rfl

theorem record_of_existed {s : FileSnapshot} (h : s.existed = true) :
    s.record = pathBytes s.path ++ 0 :: 49 :: 0 :: (s.contentBytes ++ [0]) := by
  have hflag : s.flag = 49 := by unfold FileSnapshot.flag; rw [h, if_pos rfl]
  unfold FileSnapshot.record
  rw [hflag]

theorem recordsOf_append (l l' : List FileSnapshot) :
    recordsOf (l ++ l') = recordsOf l ++ recordsOf l' := List.flatMap_append

/-- The last records of a list are replaced. -/
theorem replace_last {front : List FileSnapshot} {s t : FileSnapshot}
    {back back' : List FileSnapshot} (hl : ∀ x ∈ front ++ s :: back, x.IsCapture)
    (hasc : Ascending (front ++ s :: back)) (hpath : t.path = s.path)
    (ht : ∀ x ∈ t :: back', x.IsCapture) (hasc' : Ascending (t :: back')) :
    (∀ x ∈ front ++ t :: back', x.IsCapture) ∧ Ascending (front ++ t :: back') := by
  obtain ⟨hfront, -, hcross⟩ := List.pairwise_append.mp hasc
  obtain ⟨hlater, -⟩ := List.pairwise_cons.mp hasc'
  refine ⟨fun x hx => ?_, List.pairwise_append.mpr ⟨hfront, hasc', fun a ha b hb => ?_⟩⟩
  · rcases List.mem_append.mp hx with hx | hx
    · exact hl x (List.mem_append_left _ hx)
    · exact ht x hx
  · have has : a.path < t.path := hpath ▸ hcross a ha s (List.mem_cons_self ..)
    rcases List.mem_cons.mp hb with rfl | hb
    · exact has
    · exact has.trans (hlater b hb)

/-- A set that does not end plainly shares its stream. -/
theorem other_of_not_plain {l : List FileSnapshot} (hl : ∀ s ∈ l, s.IsCapture)
    (hasc : Ascending l) (hnot : ¬ EndsPlainly l) :
    ∃ l', (∀ s ∈ l', s.IsCapture) ∧ Ascending l' ∧ recordsOf l' = recordsOf l ∧ l' ≠ l := by
  unfold EndsPlainly at hnot
  push Not at hnot
  obtain ⟨s, hs, hexisted, hbad⟩ := hnot
  have hplain := (hl s hs).plain
  obtain ⟨front, back, rfl⟩ := List.append_of_mem hs
  have hcapture (content : Bytes) : (existing s.path content).IsCapture := ⟨rfl, hplain⟩
  obtain ⟨-, hback, hcross⟩ := List.pairwise_append.mp hasc
  by_cases hnil : back = []
  · -- the content shows a record: it is taken for one
    subst hnil
    have hmax : ∀ t ∈ front ++ [s], t.path ≤ s.path := by
      intro t ht
      rcases List.mem_append.mp ht with ht | ht
      · exact le_of_lt (hcross t ht s (List.mem_singleton.mpr rfl))
      · exact le_of_eq (congrArg FileSnapshot.path (List.mem_singleton.mp ht))
    obtain ⟨later, content, hlt, hlater, hshows⟩ := hbad hmax
    have hother (t : FileSnapshot) (ht : t.IsCapture) (hpath : t.path = later)
        (hrecords : s.contentBytes ++ [0] = content ++ 0 :: t.record) :
        ∃ l', (∀ s ∈ l', s.IsCapture) ∧ Ascending l' ∧ recordsOf l' = recordsOf (front ++ [s]) ∧
          l' ≠ front ++ [s] := by
      have hpair : Ascending [existing s.path content, t] :=
        List.pairwise_cons.mpr ⟨List.forall_mem_singleton.mpr (hpath ▸ hlt),
          List.pairwise_singleton _ _⟩
      obtain ⟨hcaptures, hascends⟩ := @replace_last front s (existing s.path content) [] [t] hl hasc
        rfl (List.forall_mem_cons.mpr ⟨hcapture content, List.forall_mem_singleton.mpr ht⟩) hpair
      refine ⟨_, hcaptures, hascends, ?_, fun heq => ?_⟩
      · rw [recordsOf_append, recordsOf_append]
        show recordsOf front ++ ((existing s.path content).record ++ (t.record ++ [])) =
          recordsOf front ++ (s.record ++ [])
        rw [record_existing, record_of_existed hexisted, hrecords]
        simp only [List.append_assoc, List.cons_append, List.nil_append, List.append_nil]
      · have hlength := congrArg List.length heq
        simp only [List.length_append, List.length_cons, List.length_nil] at hlength
        omega
    rcases hshows with hshows | ⟨rest, hshows⟩
    · refine hother (absent later) ⟨rfl, hlater⟩ rfl ?_
      rw [hshows, List.append_assoc]
      show content ++ 0 :: ((pathBytes later ++ [0, 48, 0]) ++ [0]) = _
      rw [List.append_assoc]
      rfl
    · refine hother (existing later rest) ⟨rfl, hlater⟩ rfl ?_
      rw [hshows, record_existing]
      simp only [List.append_assoc, List.cons_append]
  · -- the records behind it are taken for a part of its content
    obtain ⟨content, hcontent⟩ := @records_end s.contentBytes back
    obtain ⟨hcaptures, hascends⟩ := @replace_last front s (existing s.path content) back [] hl hasc
      rfl (List.forall_mem_singleton.mpr (hcapture content)) (List.pairwise_singleton _ _)
    refine ⟨_, hcaptures, hascends, ?_, fun heq => ?_⟩
    · rw [recordsOf_append, recordsOf_append]
      show recordsOf front ++ ((existing s.path content).record ++ []) =
        recordsOf front ++ (s.record ++ recordsOf back)
      rw [record_existing, record_of_existed hexisted, ← hcontent]
      simp only [List.append_assoc, List.cons_append, List.nil_append, List.append_nil]
    · have hlength := congrArg List.length heq
      have hpos := List.length_pos_of_ne_nil hnil
      simp only [List.length_append, List.length_cons, List.length_nil] at hlength
      omega

/-! ## What the digest identifies -/

/-- Snapshots of distinct paths, in the order in which they were captured. -/
structure SnapshotSet where
  snapshots : List FileSnapshot
  captured : CapturedSet snapshots

/-- The snapshots in the order of their paths. -/
def byPath (snapshots : List FileSnapshot) : List FileSnapshot :=
  snapshots.insertionSort fun a b => a.path ≤ b.path

theorem byPath_perm (snapshots : List FileSnapshot) : (byPath snapshots).Perm snapshots :=
  List.perm_insertionSort _ _

theorem CapturedSet.ascending {snapshots : List FileSnapshot} (h : CapturedSet snapshots) :
    Ascending (byPath snapshots) := by
  have htotal : Std.Total fun a b : FileSnapshot => a.path ≤ b.path :=
    ⟨fun a b => le_total a.path b.path⟩
  have htrans : IsTrans FileSnapshot fun a b => a.path ≤ b.path :=
    ⟨fun _ _ _ hab hbc => le_trans hab hbc⟩
  have hsorted : (byPath snapshots).Pairwise fun a b => a.path ≤ b.path :=
    List.pairwise_insertionSort _ _
  have hdistinct : (byPath snapshots).Pairwise fun a b => a.path ≠ b.path :=
    List.pairwise_map.mp (((byPath_perm snapshots).map _).nodup_iff.mpr h.distinct)
  exact hsorted.imp₂ (fun _ _ hle hne => lt_of_le_of_ne hle hne) hdistinct

theorem CapturedSet.byPath_captures {snapshots : List FileSnapshot} (h : CapturedSet snapshots) :
    ∀ s ∈ byPath snapshots, s.IsCapture :=
  fun s hs => h.captures s ((byPath_perm snapshots).mem_iff.mp hs)

/-- Lists that ascend have one order. -/
theorem eq_of_ascending {l l' : List FileSnapshot} (h : Ascending l) (h' : Ascending l')
    (hperm : l.Perm l') : l = l' :=
  List.Perm.eq_of_pairwise (fun _ _ _ _ hab hba => absurd hba (lt_asymm hab)) h h' hperm

theorem patchStream_iff {snapshots snapshots' : List FileSnapshot} :
    patchStream snapshots' = patchStream snapshots ↔
      recordsOf (byPath snapshots') = recordsOf (byPath snapshots) := by
  have hstream (l : List FileSnapshot) : (patchStream l).data.toList = recordsOf (byPath l) :=
    stream_eq (byPath l)
  rw [← hstream, ← hstream]
  exact ⟨fun h => by rw [h], fun h => ByteArray.ext (Array.ext' h)⟩

theorem endsPlainly_perm {snapshots snapshots' : List FileSnapshot}
    (h : snapshots'.Perm snapshots) : EndsPlainly snapshots' ↔ EndsPlainly snapshots := by
  unfold EndsPlainly
  simp only [h.mem_iff]

/-- The digest does not depend on the order of the capture, and the stream, and so the digest of a
    hash without collisions, belongs to no other set. -/
def DigestIdentifies (S : SnapshotSet) : Prop :=
  (∀ (sha256 : ByteArray → String) (order : List FileSnapshot), order.Perm S.snapshots →
    PatchJournal.patchDigest sha256 ⟨order⟩ = PatchJournal.patchDigest sha256 ⟨S.snapshots⟩) ∧
  (∀ S' : SnapshotSet, patchStream S'.snapshots = patchStream S.snapshots →
    ∀ s, s ∈ S'.snapshots ↔ s ∈ S.snapshots) ∧
  ∀ sha256 : ByteArray → String, Function.Injective sha256 → ∀ S' : SnapshotSet,
    PatchJournal.patchDigest sha256 ⟨S'.snapshots⟩ = PatchJournal.patchDigest sha256 ⟨S.snapshots⟩ →
    ∀ s, s ∈ S'.snapshots ↔ s ∈ S.snapshots

theorem patchStream_perm {S : SnapshotSet} {order : List FileSnapshot}
    (h : order.Perm S.snapshots) : patchStream order = patchStream S.snapshots := by
  have horder : CapturedSet order :=
    ⟨(h.map _).nodup_iff.mpr S.captured.distinct,
      fun s hs => S.captured.captures s (h.mem_iff.mp hs)⟩
  have hsame : byPath order = byPath S.snapshots := eq_of_ascending horder.ascending
    S.captured.ascending ((byPath_perm order).trans (h.trans (byPath_perm S.snapshots).symm))
  exact patchStream_iff.mpr (congrArg recordsOf hsame)

/-- A journal is identified by its digest exactly if it ends plainly. -/
theorem digestIdentifies_iff (S : SnapshotSet) :
    DigestIdentifies S ↔ EndsPlainly S.snapshots := by
  constructor
  · rintro ⟨-, hstream, -⟩
    by_contra hnot
    have hsorted : ¬ EndsPlainly (byPath S.snapshots) := fun h =>
      hnot ((endsPlainly_perm (byPath_perm S.snapshots)).mp h)
    obtain ⟨l, hl, hasc, hrecords, hne⟩ :=
      other_of_not_plain S.captured.byPath_captures S.captured.ascending hsorted
    have hdistinct : (l.map FileSnapshot.path).Nodup :=
      List.pairwise_map.mpr (hasc.imp fun hlt => ne_of_lt hlt)
    have hcaptured : CapturedSet l := ⟨hdistinct, hl⟩
    have hbyPath : byPath l = l := eq_of_ascending hcaptured.ascending hasc (byPath_perm l)
    have hsame : patchStream l = patchStream S.snapshots :=
      patchStream_iff.mpr (by rw [hbyPath, hrecords])
    have hperm : l.Perm S.snapshots :=
      (List.perm_ext_iff_of_nodup (List.Nodup.of_map _ hdistinct)
        (List.Nodup.of_map _ S.captured.distinct)).mpr (hstream ⟨l, hcaptured⟩ hsame)
    exact hne (eq_of_ascending hasc S.captured.ascending
      (hperm.trans (byPath_perm S.snapshots).symm))
  · intro hplain
    have hstream (S' : SnapshotSet) (h : patchStream S'.snapshots = patchStream S.snapshots) (s) :
        s ∈ S'.snapshots ↔ s ∈ S.snapshots := by
      have hsame := eq_of_records S.captured.byPath_captures S'.captured.byPath_captures
        S.captured.ascending S'.captured.ascending
        ((endsPlainly_perm (byPath_perm S.snapshots)).mpr hplain) (patchStream_iff.mp h)
      rw [← (byPath_perm S'.snapshots).mem_iff, hsame, (byPath_perm S.snapshots).mem_iff]
    refine ⟨fun sha256 order horder => ?_, hstream, fun sha256 hinjective S' h => ?_⟩
    · exact congrArg sha256 (patchStream_perm horder)
    · exact hstream S' (hinjective h)

/-- Two small files. -/
def twoFiles : SnapshotSet where
  snapshots := [existing "a" [120], existing "b" [121]]
  captured := by
    refine ⟨by decide, List.forall_mem_cons.mpr ⟨⟨rfl, by decide⟩,
      List.forall_mem_singleton.mpr ⟨rfl, by decide⟩⟩⟩

/-- One file whose content looks like the end of `a` and the record of `b`. -/
def mergedFile : SnapshotSet where
  snapshots := [existing "a" [120, 0, 98, 0, 49, 0, 121]]
  captured := ⟨by decide, List.forall_mem_singleton.mpr ⟨rfl, by decide⟩⟩

theorem two_files_hashed_as_one :
    patchStream mergedFile.snapshots = patchStream twoFiles.snapshots ∧
      ¬ DigestIdentifies twoFiles := by
  have hsame : patchStream mergedFile.snapshots = patchStream twoFiles.snapshots := by
    decide
  refine ⟨hsame, fun h => ?_⟩
  have hmem := (h.2.1 mergedFile hsame (existing "b" [121])).mpr (by decide)
  exact absurd hmem (by decide)

end Vad
