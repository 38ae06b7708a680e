/-
  Agent memory (`vad/memory`): a store of entries under scopes, in memory or backed by a JSON file.

  The entries of all scopes are in one dictionary, under ids that callers choose, and the scope is
  looked at only when an entry is read.

  1. **Program** — `save` puts the entry into the dictionary and writes the whole dictionary, sorted
     by id, to the file; opening the store again reads it back.

  2. **What a scope sees** — the entries of an owner and purpose, in the order of the dictionary
     (`getBySame`), and what `retrieve` returns of them.

  3. **Isolation** — as long as no save takes the id of an entry of another scope, that is the same
     as if the other scopes had not saved anything (`unwinds_scope`).  A save that takes such an id
     removes the other scope's entry, so isolation and distinct ids come to the same
     (`scopesIsolated_iff`).
-/
import Vad.Lib.Dict
import Vad.Lib.Unwinding

namespace Vad

open Unwinding (run run_snoc Along Unwinds)

/-! ## Entries and scopes -/

structure MemoryScope where
  owner : String
  purpose : String
  maxPayloadSize : Int := 1024
deriving DecidableEq, Repr

/-- `MemoryEntry`; the metadata are values of any kind. -/
structure MemoryEntry (μ : Type) where
  id : String
  scope : MemoryScope
  content : String
  metadata : μ

/-- What JSON makes of metadata: the value that is read back from what was written, or none when it
    cannot be written.  What was read can be written again, and is read back as it was. -/
structure JsonForm (μ : Type) where
  dump : μ → Option μ
  again : ∀ {m m' : μ}, dump m = some m' → dump m' = some m'

/-- `Redactor`: what each of its patterns makes of a text. -/
structure Redactor where
  substitutes : List (String → String)

/-- `Redactor.redact`. -/
def Redactor.redact (r : Redactor) (text : String) : String :=
  r.substitutes.foldl (fun text sub => sub text) text

inductive MemoryError where
  | valueError (message : String)
  | permissionError (message : String)
  /-- The entries cannot be written as JSON. -/
  | serializationError
deriving DecidableEq, Repr

/-! ## The store -/

section Program

variable {μ : Type}

/-- `LocalMemoryStore` with its file, if it has one that exists. -/
structure LocalMemoryStore (μ : Type) where
  entries : Dict (MemoryEntry μ) := []
  filePath : Option String := none
  file : Option (Dict (MemoryEntry μ)) := none

/-- The entries as they are read back from JSON, or none when one of them cannot be written. -/
def dumpEntries (json : JsonForm μ) : Dict (MemoryEntry μ) → Option (Dict (MemoryEntry μ))
  | [] => some []
  | (id, entry) :: rest =>
    match json.dump entry.metadata, dumpEntries json rest with
    | some metadata, some rest => some ((id, { entry with metadata := metadata }) :: rest)
    | _, _ => none

/-- `LocalMemoryStore._persist`. -/
def LocalMemoryStore.persist (json : JsonForm μ) (s : LocalMemoryStore μ) :
    Except MemoryError Unit × LocalMemoryStore μ :=
  match s.filePath with
  | none => (.ok (), s)
  | some _ =>
    match dumpEntries json s.entries with
    | none => (.error .serializationError, s)
    | some entries => (.ok (), { s with file := some (sortedItems entries) })

/-- Is the content small enough for the scope? -/
def MemoryEntry.fits (entry : MemoryEntry μ) : Bool :=
  (entry.content.utf8ByteSize : Int) ≤ entry.scope.maxPayloadSize

/-- `LocalMemoryStore.save`. -/
def LocalMemoryStore.save (json : JsonForm μ) (s : LocalMemoryStore μ) (entry : MemoryEntry μ) :
    Except MemoryError Unit × LocalMemoryStore μ :=
  if entry.fits = false then (.error (.valueError "Payload size exceeds scope limit"), s)
  else LocalMemoryStore.persist json { s with entries := Dict.set s.entries entry.id entry }

/-- The entry has the owner and the purpose of the scope. -/
def MemoryEntry.inScope (scope : MemoryScope) (entry : MemoryEntry μ) : Bool :=
  entry.scope.owner = scope.owner && entry.scope.purpose = scope.purpose

/-- `LocalMemoryStore.retrieve`. -/
def LocalMemoryStore.retrieve (s : LocalMemoryStore μ) (entryId : String) (scope : MemoryScope) :
    Except MemoryError (Option (MemoryEntry μ)) :=
  match Dict.get s.entries entryId with
  | none => .ok none
  | some entry =>
    if entry.inScope scope then .ok (some entry) else .error (.permissionError "Scope mismatch")

/-- `LocalMemoryStore.get_by_scope`. -/
def LocalMemoryStore.getByScope (s : LocalMemoryStore μ) (scope : MemoryScope) :
    List (MemoryEntry μ) :=
  (s.entries.map Prod.snd).filter (MemoryEntry.inScope scope)

/-- `LocalMemoryStore(file_path)` once more, after `_load` if the file exists. -/
def LocalMemoryStore.reopen (s : LocalMemoryStore μ) : LocalMemoryStore μ :=
  match s.filePath with
  | none => { s with entries := [] }
  | some _ => { s with entries := s.file.getD [] }

/-- `MemoryGateway.store_memory`. -/
def storeMemory (redactor : Redactor) (json : JsonForm μ) (s : LocalMemoryStore μ)
    (entry : MemoryEntry μ) : Except MemoryError Unit × LocalMemoryStore μ :=
  s.save json { entry with content := redactor.redact entry.content }

/-- What callers do with a store. -/
inductive MemoryAction (μ : Type) where
  | store (entry : MemoryEntry μ)
  | reopen

/-- The store after an action, whether or not it raised. -/
def memoryStep (redactor : Redactor) (json : JsonForm μ) (s : LocalMemoryStore μ) :
    MemoryAction μ → LocalMemoryStore μ
  | .store entry => (storeMemory redactor json s entry).2
  | .reopen => s.reopen

/-! ## What a scope sees -/

/-- The entry that `retrieve` returns, if it returns one. -/
def LocalMemoryStore.retrieved (s : LocalMemoryStore μ) (entryId : String) (scope : MemoryScope) :
    Option (MemoryEntry μ) := (s.retrieve entryId scope).toOption.join

/-- The actions of a scope: its own saves, and every reopening. -/
def MemoryAction.ofScope (scope : MemoryScope) : MemoryAction μ → Bool
  | .store entry => entry.inScope scope
  | .reopen => true

end Program

section Isolation

variable {μ : Type} {redactor : Redactor} {json : JsonForm μ}

/-- The store with a file at this path, or without one, before anything is saved. -/
def emptyMemory (μ : Type) (filePath : Option String) : LocalMemoryStore μ :=
  { filePath := filePath }

/-- At every point of the run, what a scope is given is what it would be given if only the calls
    under the same owner and purpose had been made. -/
def ScopesIsolated (redactor : Redactor) (json : JsonForm μ) (filePath : Option String)
    (actions : List (MemoryAction μ)) : Prop :=
  ∀ done, done <+: actions → ∀ scope : MemoryScope,
    let s := run (memoryStep redactor json) (emptyMemory μ filePath) done
    let own := run (memoryStep redactor json) (emptyMemory μ filePath)
      (done.filter (MemoryAction.ofScope scope))
    s.getByScope scope = own.getByScope scope ∧
      ∀ id, s.retrieved id scope = own.retrieved id scope

/-- The action stores nothing, or not under the id of an entry of another scope. -/
def KeepsIds (redactor : Redactor) (s : LocalMemoryStore μ) : MemoryAction μ → Prop
  | .store entry => MemoryEntry.fits { entry with content := redactor.redact entry.content } = true →
      ∀ held, Dict.get s.entries entry.id = some held → held.inScope entry.scope = true
  | .reopen => True

/-- The metadata of the saves can be written as JSON. -/
def JsonMetadata (json : JsonForm μ) (actions : List (MemoryAction μ)) : Prop :=
  ∀ entry, .store entry ∈ actions → (json.dump entry.metadata).isSome = true

/-! ## The file holds what the store holds -/

theorem dumpEntries_isSome {d : Dict (MemoryEntry μ)} :
    (∃ d', dumpEntries json d = some d') ↔
      ∀ id entry, (id, entry) ∈ d → (json.dump entry.metadata).isSome = true := by
  induction d with
  | nil => simp [dumpEntries]
  | cons e rest ih =>
    obtain ⟨id, entry⟩ := e
    simp only [List.mem_cons, Prod.mk.injEq, or_imp, forall_and, ← ih, dumpEntries]
    cases hdump : json.dump entry.metadata with
    | none => simp [hdump]
    | some metadata => cases hrest : dumpEntries json rest <;> simp [hdump]

/-- What is read back has the same ids, the same scopes, and metadata that JSON keeps. -/
theorem dumpEntries_mem {d d' : Dict (MemoryEntry μ)} (h : dumpEntries json d = some d') :
    d'.map Prod.fst = d.map Prod.fst ∧ ∀ id entry, (id, entry) ∈ d' →
      json.dump entry.metadata = some entry.metadata ∧
        ∃ before, (id, before) ∈ d ∧ entry.id = before.id := by
  induction d generalizing d' with
  | nil =>
    cases h
    exact ⟨rfl, fun id entry hin => absurd hin List.not_mem_nil⟩
  | cons e rest ih =>
    obtain ⟨id, entry⟩ := e
    unfold dumpEntries at h
    split at h
    · rename_i metadata rest' hdump hrest
      cases h
      obtain ⟨hkeys, hmem⟩ := ih hrest
      refine ⟨congrArg (id :: ·) hkeys, fun id' entry' hin => ?_⟩
      rcases List.mem_cons.mp hin with heq | hin
      · obtain ⟨rfl, rfl⟩ := Prod.mk.inj heq
        exact ⟨json.again hdump, entry, List.mem_cons_self, rfl⟩
      · obtain ⟨hagain, before, hbefore, hid⟩ := hmem id' entry' hin
        exact ⟨hagain, before, List.mem_cons_of_mem _ hbefore, hid⟩
    · cases h

/-- Entries whose metadata JSON keeps are read back as they are. -/
theorem dumpEntries_self {d : Dict (MemoryEntry μ)}
    (h : ∀ id entry, (id, entry) ∈ d → json.dump entry.metadata = some entry.metadata) :
    dumpEntries json d = some d := by
  induction d with
  | nil => rfl
  | cons e rest ih =>
    obtain ⟨id, entry⟩ := e
    have hrest := ih fun id' entry' hin => h id' entry' (List.mem_cons_of_mem _ hin)
    simp only [dumpEntries, h id entry List.mem_cons_self, hrest]

/-- Scopes with the same owner and purpose have the same entries. -/
theorem inScope_congr {entry held : MemoryEntry μ} (h : held.inScope entry.scope = true)
    (scope : MemoryScope) : held.inScope scope = entry.inScope scope := by
  unfold MemoryEntry.inScope at h ⊢
  rw [Bool.and_eq_true, decide_eq_true_eq, decide_eq_true_eq] at h
  rw [h.1, h.2]

theorem inScope_self (entry : MemoryEntry μ) : entry.inScope entry.scope = true := by
  simp [MemoryEntry.inScope]

/-- The entries of a scope. -/
def scopePart (scope : MemoryScope) (e : String × MemoryEntry μ) : Bool := e.2.inScope scope

/-- The entries of a scope are read back as the entries of the scope. -/
theorem dumpEntries_filter {d d' : Dict (MemoryEntry μ)} (h : dumpEntries json d = some d')
    (scope : MemoryScope) :
    dumpEntries json (d.filter (scopePart scope)) = some (d'.filter (scopePart scope)) := by
  induction d generalizing d' with
  | nil =>
    cases h
    rfl
  | cons e rest ih =>
    obtain ⟨id, entry⟩ := e
    unfold dumpEntries at h
    split at h
    · rename_i metadata rest' hdump hrest
      cases h
      have hsame : scopePart scope (id, { entry with metadata := metadata }) =
        scopePart scope (id, entry) := rfl
      by_cases hin : scopePart scope (id, entry) = true
      · rw [List.filter_cons_of_pos hin, List.filter_cons_of_pos (hsame.trans hin)]
        simp only [dumpEntries, hdump, ih hrest]
      · rw [List.filter_cons_of_neg hin, List.filter_cons_of_neg (by rw [hsame]; exact hin)]
        exact ih hrest
    · cases h

/-- Every entry is under its own id, all of them can be written, and the file, where there is one,
    holds what is read back of them. -/
structure Kept (json : JsonForm μ) (s : LocalMemoryStore μ) : Prop where
  keys : s.entries.KeysNodup
  ids : ∀ id entry, (id, entry) ∈ s.entries → entry.id = id
  synced : ∃ d, dumpEntries json s.entries = some d ∧
    ∀ path, s.filePath = some path → s.file.getD [] = sortedItems d

theorem persist_entries (s : LocalMemoryStore μ) :
    (s.persist json).2.entries = s.entries ∧ (s.persist json).2.filePath = s.filePath := by
  unfold LocalMemoryStore.persist
  split
  · exact ⟨rfl, rfl⟩
  · split <;> exact ⟨rfl, rfl⟩

/-- A save changes the entries, if at all, by its own entry. -/
theorem save_entries (s : LocalMemoryStore μ) (entry : MemoryEntry μ) :
    (s.save json entry).2.entries =
      if entry.fits = true then Dict.set s.entries entry.id entry else s.entries := by
  unfold LocalMemoryStore.save
  cases entry.fits with
  | false => rfl
  | true => exact (persist_entries _).1

theorem save_filePath (s : LocalMemoryStore μ) (entry : MemoryEntry μ) :
    (s.save json entry).2.filePath = s.filePath := by
  unfold LocalMemoryStore.save
  cases entry.fits with
  | false => rfl
  | true => exact (persist_entries _).2

theorem reopen_filePath (s : LocalMemoryStore μ) : s.reopen.filePath = s.filePath := by
  unfold LocalMemoryStore.reopen
  split <;> rfl

theorem kept_empty (filePath : Option String) : Kept json (emptyMemory μ filePath) where
  keys := List.nodup_nil
  ids _ _ hin := absurd hin List.not_mem_nil
  synced := ⟨[], rfl, fun _ _ => rfl⟩

/-- The new entry is written with the others. -/
theorem Kept.save {s : LocalMemoryStore μ} (h : Kept json s) {entry : MemoryEntry μ}
    (hjson : (json.dump entry.metadata).isSome = true) : Kept json (s.save json entry).2 := by
  unfold LocalMemoryStore.save
  cases entry.fits with
  | false => exact h
  | true =>
    show Kept json (LocalMemoryStore.persist json _).2
    have hkeys := Dict.keysNodup_set h.keys entry.id entry
    have hids : ∀ id e, (id, e) ∈ Dict.set s.entries entry.id entry → e.id = id := by
      intro id e hin
      rcases Dict.mem_set hin with ⟨rfl, rfl⟩ | hin
      · rfl
      · exact h.ids id e hin
    have hwritable : ∀ id e, (id, e) ∈ Dict.set s.entries entry.id entry →
        (json.dump e.metadata).isSome = true := by
      intro id e hin
      rcases Dict.mem_set hin with ⟨rfl, rfl⟩ | hin
      · exact hjson
      · obtain ⟨d, hd, -⟩ := h.synced
        exact dumpEntries_isSome.mp ⟨d, hd⟩ id e hin
    obtain ⟨d, hd⟩ := dumpEntries_isSome.mpr hwritable
    unfold LocalMemoryStore.persist
    cases hpath : s.filePath with
    | none => exact ⟨hkeys, hids, d, hd, fun _ hnone => (by cases hnone)⟩
    | some path =>
      simp only [hd]
      exact ⟨hkeys, hids, d, hd, fun _ _ => rfl⟩

/-- What is read back is under its ids, and can be written again. -/
theorem Kept.reopen {s : LocalMemoryStore μ} (h : Kept json s) : Kept json s.reopen := by
  obtain ⟨d, hd, hfile⟩ := h.synced
  unfold LocalMemoryStore.reopen
  cases hpath : s.filePath with
  | none =>
    exact ⟨List.nodup_nil, fun id entry hin => absurd hin List.not_mem_nil, [], rfl,
      fun _ hnone => (by cases hnone)⟩
  | some path =>
    obtain ⟨hkeys, hmem⟩ := dumpEntries_mem hd
    have hnodup : Dict.KeysNodup d := by
      show (d.map Prod.fst).Nodup
      rw [hkeys]
      exact h.keys
    have hsorted : (sortedItems d).KeysNodup :=
      ((List.perm_insertionSort _ d).map Prod.fst).nodup_iff.mpr hnodup
    simp only [hfile path hpath]
    refine ⟨hsorted, fun id entry hin => ?_, sortedItems d, ?_, fun _ _ => ?_⟩
    · obtain ⟨-, before, hbefore, hid⟩ := hmem id entry (mem_sortedItems.mp hin)
      exact hid.trans (h.ids id before hbefore)
    · exact dumpEntries_self fun id entry hin => (hmem id entry (mem_sortedItems.mp hin)).1
    · rw [sortedItems_idem, hfile path hpath]

theorem Kept.step {s : LocalMemoryStore μ} (h : Kept json s) {a : MemoryAction μ}
    (hjson : ∀ entry, a = .store entry → (json.dump entry.metadata).isSome = true) :
    Kept json (memoryStep redactor json s a) := by
  cases a with
  | store entry => exact h.save (hjson entry rfl)
  | reopen => exact h.reopen

/-! ## Isolation -/

theorem getByScope_eq (s : LocalMemoryStore μ) (scope : MemoryScope) :
    s.getByScope scope = (s.entries.filter (scopePart scope)).map Prod.snd :=
  List.filter_map

/-- What is returned for a scope is found among the entries of the scope. -/
theorem retrieved_eq {s : LocalMemoryStore μ} (h : s.entries.KeysNodup) (id : String)
    (scope : MemoryScope) :
    s.retrieved id scope = Dict.get (s.entries.filter (scopePart scope)) id := by
  rw [Dict.get_filter h]
  unfold LocalMemoryStore.retrieved LocalMemoryStore.retrieve
  cases Dict.get s.entries id with
  | none => rfl
  | some entry =>
    show (if entry.inScope scope = true then Except.ok (some entry) else _).toOption.join = _
    show _ = if entry.inScope scope = true then some entry else none
    by_cases hin : entry.inScope scope = true
    · rw [if_pos hin, if_pos hin]
      rfl
    · rw [if_neg hin, if_neg hin]
      rfl

/-- The second store holds of the first one what belongs to the scope. -/
structure Part (json : JsonForm μ) (scope : MemoryScope) (s own : LocalMemoryStore μ) : Prop where
  filePath : own.filePath = s.filePath
  entries : own.entries = s.entries.filter (scopePart scope)
  kept : Kept json s
  keptOwn : Kept json own

/-- An action with metadata that can be written, which keeps the ids of other scopes. -/
def Allowed (redactor : Redactor) (json : JsonForm μ) (s : LocalMemoryStore μ)
    (a : MemoryAction μ) : Prop :=
  KeepsIds redactor s a ∧ ∀ entry, a = .store entry → (json.dump entry.metadata).isSome = true

/-- Both stores are read back from their files, which differ as the stores do. -/
theorem Part.reopen {scope : MemoryScope} {s own : LocalMemoryStore μ}
    (h : Part json scope s own) : Part json scope s.reopen own.reopen := by
  refine ⟨?_, ?_, h.kept.reopen, h.keptOwn.reopen⟩
  · exact (reopen_filePath own).trans (h.filePath.trans (reopen_filePath s).symm)
  · obtain ⟨d, hd, hfile⟩ := h.kept.synced
    obtain ⟨d', hd', hfile'⟩ := h.keptOwn.synced
    rw [h.entries, dumpEntries_filter hd scope] at hd'
    obtain rfl := Option.some.inj hd'
    have hnodup : Dict.KeysNodup d := by
      show (d.map Prod.fst).Nodup
      rw [(dumpEntries_mem hd).1]
      exact h.kept.keys
    unfold LocalMemoryStore.reopen
    rw [h.filePath]
    cases hpath : s.filePath with
    | none => rfl
    | some path =>
      show own.file.getD [] = (s.file.getD []).filter (scopePart scope)
      rw [hfile path hpath, hfile' path (h.filePath.trans hpath), filter_sortedItems hnodup]

/-- Own actions do the same to both stores, and those of other scopes nothing to the part. -/
theorem unwinds_scope (scope : MemoryScope) :
    Unwinds (memoryStep redactor json) (Allowed redactor json) (MemoryAction.ofScope scope)
      (Part json scope) where
  inside s own a h hallowed hown := by
    cases a with
    | reopen => exact h.reopen
    | store entry =>
      obtain ⟨hkeeps, hjson⟩ := hallowed
      refine ⟨?_, ?_, h.kept.save (hjson entry rfl), h.keptOwn.save (hjson entry rfl)⟩
      · exact (save_filePath own _).trans (h.filePath.trans (save_filePath s _).symm)
      · show (own.save json _).2.entries = (s.save json _).2.entries.filter (scopePart scope)
        rw [save_entries, save_entries, h.entries]
        split
        · rename_i hfits
          refine (Dict.filter_set hown fun e he hkey => ?_).symm
          -- an entry that is replaced has the scope of the new one
          have hheld := hkeeps hfits e.2 ((Dict.mem_iff_get h.kept.keys).mp (hkey ▸ he))
          exact (inScope_congr hheld scope).trans hown
        · rfl
  outside s own a h hallowed hother := by
    cases a with
    | reopen => cases hother
    | store entry =>
      obtain ⟨hkeeps, hjson⟩ := hallowed
      refine ⟨h.filePath.trans (save_filePath s _).symm, ?_, h.kept.save (hjson entry rfl), h.keptOwn⟩
      show own.entries = (s.save json _).2.entries.filter (scopePart scope)
      rw [save_entries, h.entries]
      split
      · rename_i hfits
        refine (Dict.filter_set_of_not hother fun e he hkey => ?_).symm
        have hheld := hkeeps hfits e.2 ((Dict.mem_iff_get h.kept.keys).mp (hkey ▸ he))
        exact (inScope_congr hheld scope).trans hother
      · rfl

variable {filePath : Option String} {actions : List (MemoryAction μ)}

theorem kept_run (hjson : JsonMetadata json actions) :
    Kept json (run (memoryStep redactor json) (emptyMemory μ filePath) actions) := by
  refine Unwinding.run_invariant (fun s a ha hs => hs.step fun entry heq => ?_)
    (kept_empty filePath)
  exact hjson entry (heq ▸ ha)

/-- An accepted save under the id of an entry of another scope takes that entry away. -/
theorem getByScope_of_taken (entry : MemoryEntry μ) {s : LocalMemoryStore μ} (hs : Kept json s)
    {held : MemoryEntry μ} (hnext : Kept json (s.save json entry).2) (hfits : entry.fits = true)
    (hheld : Dict.get s.entries entry.id = some held)
    (hother : ¬ held.inScope entry.scope = true) :
    (s.save json entry).2.getByScope held.scope ≠ s.getByScope held.scope := by
  intro hsame
  have hin : held ∈ s.getByScope held.scope := by
    rw [getByScope_eq]
    exact List.mem_map.mpr ⟨(entry.id, held), List.mem_filter.mpr
      ⟨(Dict.mem_iff_get hs.keys).mpr hheld, inScope_self held⟩, rfl⟩
  rw [← hsame, getByScope_eq] at hin
  obtain ⟨⟨id, found⟩, hfound, rfl⟩ := List.mem_map.mp hin
  obtain ⟨hfound, -⟩ := List.mem_filter.mp hfound
  -- the entry would still be under its id, where the new one is now
  have hid : id = entry.id := by
    rw [← hnext.ids id found hfound]
    exact hs.ids _ _ ((Dict.mem_iff_get hs.keys).mpr hheld)
  have hget := (Dict.mem_iff_get hnext.keys).mp hfound
  rw [save_entries, if_pos hfits, Dict.get_set, if_pos hid.symm] at hget
  rw [← Option.some.inj hget] at hother
  exact hother (inScope_self _)

/-- With metadata that can be written, the scopes of a run are isolated exactly if no accepted save
    of the run takes an id that an entry of another scope has at that time. -/
theorem scopesIsolated_iff (hjson : JsonMetadata json actions) :
    ScopesIsolated redactor json filePath actions ↔
      Along (memoryStep redactor json) (KeepsIds redactor) (emptyMemory μ filePath) actions := by
  constructor
  · intro h
    refine Unwinding.along_iff.mpr fun done a rest heq => ?_
    cases a with
    | reopen => trivial
    | store entry =>
      intro hfits held hheld
      by_contra hother
      have hdone := h done ⟨_, heq.symm⟩ held.scope
      have hnext := h (done ++ [.store entry]) ⟨rest, by rw [heq]; simp⟩ held.scope
      -- the save is not one of the calls under the scope of the entry
      have hforeign : ¬ MemoryAction.ofScope held.scope (.store entry) = true := fun howned =>
        hother ((inScope_congr howned entry.scope).symm.trans (inScope_self entry))
      have hown : (done ++ [MemoryAction.store entry]).filter (MemoryAction.ofScope held.scope) =
          done.filter (MemoryAction.ofScope held.scope) := by
        rw [List.filter_append, List.filter_cons_of_neg hforeign, List.filter_nil, List.append_nil]
      rw [hown] at hnext
      have hkept : Kept json (run (memoryStep redactor json) (emptyMemory μ filePath) done) :=
        kept_run fun entry hin => hjson entry (by rw [heq]; exact List.mem_append_left _ hin)
      have hwritable := hjson entry (by rw [heq]; simp)
      refine getByScope_of_taken { entry with content := redactor.redact entry.content } hkept
        (hkept.save hwritable) hfits hheld hother ?_
      refine Eq.trans ?_ (hnext.1.trans hdone.1.symm)
      rw [run_snoc]
      rfl
  · intro h done hprefix scope
    obtain ⟨rest, rfl⟩ := hprefix
    have hallowed : Along (memoryStep redactor json) (Allowed redactor json)
        (emptyMemory μ filePath) done := by
      refine Unwinding.along_iff.mpr fun before a after heq => ⟨?_, fun entry hstore => ?_⟩
      · exact Unwinding.along_iff.mp h before a (after ++ rest) (by rw [heq]; simp)
      · exact hjson entry (by rw [heq, hstore]; simp)
    have hunwinds : Unwinds (memoryStep redactor json) (Allowed redactor json)
        (MemoryAction.ofScope scope) (Part json scope) := unwinds_scope scope
    have hpart := hunwinds.run_own
      ⟨rfl, rfl, kept_empty filePath, kept_empty filePath⟩ hallowed
    refine ⟨?_, fun id => ?_⟩
    · rw [getByScope_eq, getByScope_eq, hpart.entries, List.filter_filter]
      simp only [Bool.and_self]
    · rw [retrieved_eq hpart.kept.keys, retrieved_eq hpart.keptOwn.keys, hpart.entries,
        List.filter_filter]
      simp only [Bool.and_self]

end Isolation

/-! ## Two agents and one id -/

/-- Metadata without entries. -/
def unitJson : JsonForm Unit where
  dump m := some m
  again h := h

def sampleEntry (owner content : String) : MemoryEntry Unit where
  id := "1"
  scope := { owner := owner, purpose := "general" }
  content := content
  metadata := ()

/-- The second agent's save takes the entry of the first one away. -/
theorem second_agent_replaces : ¬ ScopesIsolated ⟨[]⟩ unitJson none
    [.store (sampleEntry "agent-1" "first"), .store (sampleEntry "agent-2" "second")] := by
  intro h
  have hlisted := (h _ (List.prefix_refl _) { owner := "agent-1", purpose := "general" }).1
  have hlength := congrArg List.length hlisted
  revert hlength
  decide

/-- With ids of their own, and the store reopened in between, the agents do not meet. -/
theorem scopesIsolated_sample :
    ScopesIsolated ⟨[]⟩ unitJson (some "memory.json")
      [.store (sampleEntry "agent-1" "first"), .reopen,
        .store { sampleEntry "agent-2" "second" with id := "2" }] ↔
    Along (memoryStep ⟨[]⟩ unitJson) (KeepsIds ⟨[]⟩) (emptyMemory Unit (some "memory.json"))
      [.store (sampleEntry "agent-1" "first"), .reopen,
        .store { sampleEntry "agent-2" "second" with id := "2" }] :=
  scopesIsolated_iff fun _ _ => rfl

end Vad
