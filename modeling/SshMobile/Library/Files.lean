import SshMobile.Library.Bytes
import SshMobile.Library.Table

/-!
# Files

The files of a program, as far as its own calls can change them: locations name entries, an entry
may be a file, and a file has contents of its own. A file that is open is known by its number, so
that a write reaches it after its entry was moved or removed.

The calls that change something are the constructors of `Action`. `Action.Changes` says for each of
them when the entry at a location, or the contents of the file there, is changed.

## Main definitions

* `FileStore`: entries and contents
* `FileStore.look`: what is at a location
* `Action`, `Action.apply`: the calls
* `Action.Changes`: when a call changes what is at a location

## Main results

* `Action.look_apply_ne_iff`: a call changes a location exactly when `Action.Changes` says so
-/

namespace Library

universe u

/-- A directory entry; a file is known by its number. -/
inductive Node
  | file (id : ℕ)
  | directory
  | link
deriving DecidableEq

/-- The entries at locations, and the contents of files; the numbers of files are used in turn. -/
structure FileStore (L : Type u) [DecidableEq L] where
  entries : Table L Node
  contents : Table ℕ Bytes
  nextId : ℕ
  id_lt : ∀ {loc id}, entries.get? loc = some (.file id) → id < nextId

namespace FileStore

variable {L : Type u} [DecidableEq L]

/-- The store without files. -/
def empty : FileStore L := ⟨∅, ∅, 0, fun h => nomatch h⟩

/-- The contents of the file with a number. -/
def content (fs : FileStore L) (id : ℕ) : Bytes := (fs.contents.get? id).getD []

/-- The contents behind an entry. -/
def nodeContent (fs : FileStore L) : Node → Bytes
  | .file id => fs.content id
  | .directory => []
  | .link => []

/-- What is at a location: the entry, and the contents if it is a file. -/
def look (fs : FileStore L) (loc : L) : Option (Node × Bytes) :=
  (fs.entries.get? loc).map fun node => (node, fs.nodeContent node)

/-- The entry can be removed: it is a file or a link. -/
def Removable (fs : FileStore L) (loc : L) : Prop :=
  fs.entries.get? loc ≠ none ∧ fs.entries.get? loc ≠ some .directory

instance (fs : FileStore L) (loc : L) : Decidable (fs.Removable loc) :=
  inferInstanceAs (Decidable (_ ∧ _))

/-- The entry can be moved: it exists, and the target is neither a directory nor the same file. -/
def Movable (fs : FileStore L) (source target : L) : Prop :=
  fs.entries.get? source ≠ none ∧ fs.entries.get? target ≠ some .directory ∧
    fs.entries.get? source ≠ fs.entries.get? target

instance (fs : FileStore L) (source target : L) : Decidable (fs.Movable source target) :=
  inferInstanceAs (Decidable (_ ∧ _ ∧ _))

/-- The bytes with others written over them from an offset on. -/
def overwrite (content : Bytes) (offset : ℕ) (bytes : Bytes) : Bytes :=
  content.take offset ++ List.replicate (offset - content.length) 0 ++ bytes ++
    content.drop (offset + bytes.length)

theorem overwrite_length (content bytes : Bytes) :
    overwrite content content.length bytes = content ++ bytes := by
  simp [overwrite]

end FileStore

/-- The calls that change files. -/
inductive Action (L : Type u)
  | keep
  | remove (loc : L)
  | move (source target : L)
  /-- An existing file loses its contents, a new one is created. -/
  | truncate (loc : L)
  | write (id offset : ℕ) (bytes : Bytes)

namespace Action

open FileStore

variable {L : Type u} [DecidableEq L]

def removeEntry (fs : FileStore L) (loc : L) : FileStore L where
  entries := fs.entries.erase loc
  contents := fs.contents
  nextId := fs.nextId
  id_lt := by
    intro loc' id h
    rw [Table.get?_erase] at h
    split_ifs at h
    exact fs.id_lt h

def moveEntry (fs : FileStore L) (source target : L) (node : Node)
    (h : fs.entries.get? source = some node) : FileStore L where
  entries := (fs.entries.erase source).insert target node
  contents := fs.contents
  nextId := fs.nextId
  id_lt := by
    intro loc id hloc
    rw [Table.get?_insert, Table.get?_erase] at hloc
    split_ifs at hloc
    · exact fs.id_lt (h.trans hloc)
    · exact fs.id_lt hloc

def createFile (fs : FileStore L) (loc : L) : FileStore L where
  entries := fs.entries.insert loc (.file fs.nextId)
  contents := fs.contents.insert fs.nextId []
  nextId := fs.nextId + 1
  id_lt := by
    intro loc' id h
    rw [Table.get?_insert] at h
    split_ifs at h
    · cases h
      exact Nat.lt_succ_self _
    · exact (fs.id_lt h).trans (Nat.lt_succ_self _)

/-- The store with other contents for one file. -/
def setContent (fs : FileStore L) (id : ℕ) (bytes : Bytes) : FileStore L :=
  { fs with contents := fs.contents.insert id bytes }

/-- The store after a call; a call that cannot be done changes nothing. -/
def apply (fs : FileStore L) : Action L → FileStore L
  | keep => fs
  | remove loc => if fs.Removable loc then removeEntry fs loc else fs
  | move source target =>
    match h : fs.entries.get? source with
    | none => fs
    | some node =>
      if fs.Movable source target then moveEntry fs source target node h else fs
  | truncate loc =>
    match fs.entries.get? loc with
    | none => createFile fs loc
    | some (.file id) => setContent fs id []
    | some .directory => fs
    | some .link => fs
  | write id offset bytes => setContent fs id (overwrite (fs.content id) offset bytes)

/-- When a call changes what is at `loc`. -/
def Changes (fs : FileStore L) (loc : L) : Action L → Prop
  | keep => False
  | remove l => l = loc ∧ fs.Removable l
  | move source target => fs.Movable source target ∧ (loc = source ∨ loc = target)
  | truncate l =>
    (l = loc ∧ fs.entries.get? l = none) ∨
      ∃ id, fs.entries.get? l = some (.file id) ∧ fs.entries.get? loc = some (.file id) ∧
        fs.content id ≠ []
  | write id offset bytes =>
    fs.entries.get? loc = some (.file id) ∧ overwrite (fs.content id) offset bytes ≠ fs.content id

variable {fs : FileStore L} {loc : L}

/-- What is at a location depends on its entry, and on the contents of the file there. -/
theorem look_congr {fs' : FileStore L} (hentry : fs'.entries.get? loc = fs.entries.get? loc)
    (hcontent : ∀ id, fs.entries.get? loc = some (.file id) → fs'.content id = fs.content id) :
    fs'.look loc = fs.look loc := by
  rw [look, look, hentry]
  refine Option.map_congr fun node hnode => ?_
  cases node with
  | file id => grind [nodeContent]
  | directory | link => rfl

theorem entry_eq_of_look_eq {fs' : FileStore L} (h : fs'.look loc = fs.look loc) :
    fs'.entries.get? loc = fs.entries.get? loc := by
  have hfst := congrArg (Option.map Prod.fst) h
  simpa [look, Function.comp_def] using hfst

theorem content_setContent (fs : FileStore L) (id id' : ℕ) (bytes : Bytes) :
    (setContent fs id bytes).content id' = if id' = id then bytes else fs.content id' := by
  grind [content, setContent]

theorem look_setContent_ne_iff {id : ℕ} {bytes : Bytes} :
    (setContent fs id bytes).look loc ≠ fs.look loc ↔
      fs.entries.get? loc = some (.file id) ∧ bytes ≠ fs.content id := by
  have hentry : (setContent fs id bytes).entries.get? loc = fs.entries.get? loc := rfl
  constructor
  · grind [look_congr, content_setContent]
  · grind [look, nodeContent, content_setContent]

theorem look_removeEntry_ne_iff {loc' : L} (h : fs.entries.get? loc' ≠ none) :
    (removeEntry fs loc').look loc ≠ fs.look loc ↔ loc' = loc := by
  have hentry : (removeEntry fs loc').entries.get? loc =
      if loc = loc' then none else fs.entries.get? loc := Table.get?_erase _ _ _
  constructor
  · intro hne
    by_contra hloc
    refine hne (look_congr ?_ fun _ _ => rfl)
    rw [hentry, if_neg (Ne.symm hloc)]
  · grind [entry_eq_of_look_eq]

theorem look_moveEntry_ne_iff {source target : L} {node : Node}
    (h : fs.entries.get? source = some node) (hmovable : fs.Movable source target) :
    (moveEntry fs source target node h).look loc ≠ fs.look loc ↔ loc = source ∨ loc = target := by
  have hentry : (moveEntry fs source target node h).entries.get? loc =
      if loc = target then some node else if loc = source then none else fs.entries.get? loc := by
    grind [moveEntry]
  constructor
  · intro hne
    by_contra hloc
    rw [not_or] at hloc
    refine hne (look_congr ?_ fun _ _ => rfl)
    rw [hentry, if_neg hloc.2, if_neg hloc.1]
  · intro hloc heq
    have hsame := entry_eq_of_look_eq heq
    rw [hentry] at hsame
    split_ifs at hsame with htarget hsource
    · subst htarget
      exact hmovable.2.2 (h.trans hsame)
    · simp_all
    · exact hloc.elim hsource htarget

theorem look_createFile_ne_iff {loc' : L} (h : fs.entries.get? loc' = none) :
    (createFile fs loc').look loc ≠ fs.look loc ↔ loc' = loc := by
  have hentry : (createFile fs loc').entries.get? loc =
      if loc = loc' then some (.file fs.nextId) else fs.entries.get? loc :=
    Table.get?_insert _ _ _ _
  constructor
  · intro hne
    by_contra hloc
    refine hne (look_congr ?_ fun id hfile => ?_)
    · rw [hentry, if_neg (Ne.symm hloc)]
    · -- the number of the new file is in use nowhere
      have hid : id ≠ fs.nextId := (fs.id_lt hfile).ne
      grind [content, createFile]
  · grind [entry_eq_of_look_eq]

/-- **What a call changes**: it changes a location exactly when `Changes` says so. -/
theorem look_apply_ne_iff (action : Action L) :
    (action.apply fs).look loc ≠ fs.look loc ↔ action.Changes fs loc := by
  cases action with
  | keep => simp [apply, Changes]
  | remove l =>
    rw [apply, Changes]
    split_ifs with h
    · rw [look_removeEntry_ne_iff h.1]
      simp [h]
    · simp [h]
  | move source target =>
    rw [apply, Changes]
    split
    · rename_i h
      have hmovable : ¬ fs.Movable source target := fun hm => hm.1 h
      simp [hmovable]
    · grind [look_moveEntry_ne_iff]
  | truncate l =>
    grind [apply, Changes, look_createFile_ne_iff, look_setContent_ne_iff]
  | write id offset bytes =>
    rw [apply, Changes, look_setContent_ne_iff]

theorem look_apply_eq_iff (action : Action L) :
    (action.apply fs).look loc = fs.look loc ↔ ¬ action.Changes fs loc := by
  rw [← look_apply_ne_iff, not_not]

end Action

end Library
