import KernelLane.KfsSeeded

namespace KernelLane.Kfs

open List UInt32 Node Tree

/-!
# What a seeded volume shows

A mount of a seeded volume is compared with the host tree path by path.  A
store that holds the entries of a tree shows it when no two directories that
share an inode number have entries.
-/

/-- The store shows this node at a path. -/
def ShowsNode (volume : KFS) (path : Bytes) : Node → Prop
  | .file data =>
    (∃ info, volume.stat path = .ok info ∧ info.attr = 0 ∧ info.size.toNat = data.length) ∧
      ∀ off count, (KFS.readFile path off count volume).1 = .ok ((data.drop off.toNat).take count)
  | .dir contents =>
    (∃ info, volume.stat path = .ok info ∧ info.attr = attrDir) ∧ ∃ infos,
      volume.list path = .ok infos ∧ (infos.map StatInfo.name).Perm contents.names

/-- The store shows this tree: every node at its path, and nothing else. -/
def ShowsTree (volume : KFS) (listing : Listing) : Prop :=
  ∀ names, (∀ name ∈ names, ProperName name) →
    match (dir listing).find names with
    | some node => ShowsNode volume (joinPath names) node
    | none => ∃ failure, volume.stat (joinPath names) = .error failure

/-- The volume mounts, and shows the host tree below the given path. -/
def SeedShows (seeded : BlockDev) (above : Bytes) (host : HostTree) : Prop :=
  ∃ volume names, mountKFS seeded = .mounted volume ∧ splitPath (slash :: trim above) = .ok names ∧
    ShowsTree volume (host.listing.graft names)

/-- No directory with entries shares its number with another directory. -/
def Apart (entries : List Entry) (number : Nat) : Prop :=
  ∀ entry ∈ entries, ofNat entry.parent = ofNat number → entry.parent = number

instance (entries : List Entry) (number : Nat) : Decidable (Apart entries number) :=
  inferInstanceAs (Decidable (∀ _ ∈ entries, _ → _))

/-- What a tree must be for a volume to show it. -/
structure Seedable (above : Bytes) (host : HostTree) : Prop where
  /-- Path resolution keeps every component of the path. -/
  proper : ∀ part ∈ pathParts above, ProperName part
  /-- Names and sizes fit their fields. -/
  small : ∀ entry ∈ (host.listing.graft (pathParts above)).allEntries, SmallEntry entry
  /-- Entries that share an inode number have the same contents. -/
  sameContent : SameContent (host.listing.graft (pathParts above)).allEntries
  /-- Directories that share an inode number have no entries. -/
  apart : ∀ number, IsDirectory (host.listing.graft (pathParts above)).allEntries number →
    Apart (host.listing.graft (pathParts above)).allEntries number

section Linked

variable {volume : KFS} {listing : Listing} {path : List Bytes} {number : Nat} {contents : Listing}

theorem entries_linked {entries : List Entry}
    (linked : Linked volume.toTree (entries.map entryLink)) (ino : UInt32) :
    volume.entries ino = (entries.filter (ofNat ·.parent = ino)).map fun entry =>
      volume.statOf entry.name (ofNat entry.number) := by
  rw [linked.entries, filter_map, map_map]
  rfl

theorem filter_apart (place : At listing path number (.dir contents))
    (apart : Apart listing.allEntries number) :
    listing.allEntries.filter (ofNat ·.parent = ofNat number) =
      (contents.items (number + 1)).map (Item.entry number) := by
  rw [← place.filter_entries]
  apply filter_congr
  intro entry member
  rw [decide_eq_decide]
  constructor
  · exact apart entry member
  · intro same
    rw [same]

theorem lookup_linked {entries : List Entry} (linked : Linked volume.toTree (entries.map entryLink))
    (ino : UInt32) (name : Bytes) :
    volume.lookup ino name = ((entries.filter (ofNat ·.parent = ino)).find?
      (·.name = name)).map fun entry => ofNat entry.number := by
  rw [linked.lookup, filter_map, List.find?_map, Option.map_map]
  rfl

section

variable (linked : Linked volume.toTree (listing.allEntries.map entryLink))
  (place : At listing path number (.dir contents)) (apart : Apart listing.allEntries number)
include linked place apart

theorem lookup_apart (name : Bytes) : volume.lookup (ofNat number) name =
    ((contents.items (number + 1)).find? (·.name = name)).map fun item => ofNat item.number := by
  rw [lookup_linked linked, filter_apart place apart, List.find?_map, Option.map_map]
  rfl

theorem entries_apart :
    volume.entries (ofNat number) = (contents.items (number + 1)).map fun item =>
      volume.statOf item.name (ofNat item.number) := by
  rw [entries_linked linked, filter_apart place apart, map_map]
  rfl

end

theorem KFS.name_statOf (volume : KFS) (name : Bytes) (ino : UInt32) :
    (volume.statOf name ino).name = name := by
  unfold KFS.statOf
  split <;> rfl

theorem names_apart (linked : Linked volume.toTree (listing.allEntries.map entryLink))
    (place : At listing path number (.dir contents)) (apart : Apart listing.allEntries number) :
    (volume.entries (ofNat number)).map StatInfo.name = contents.names := by
  rw [entries_apart linked place apart, map_map, ← contents.names_items (number + 1)]
  apply map_congr_left
  intro item _
  exact volume.name_statOf item.name (ofNat item.number)

end Linked

/-! ## Trees that are shown -/

theorem rootIno_eq : rootIno = ofNat rootNumber := rfl

section Shown

variable {volume : KFS} {listing : Listing}

variable {path : List Bytes} {number : Nat} {contents : Listing} {item : Item}

section

variable (holds : Holds volume.toTree listing.allEntries)
  (place : At listing path number (.dir contents)) (member : item ∈ contents.items (number + 1))
include holds place member

theorem Holds.inode_item :
    volume.inodes (ofNat item.number) = some (entryInode (item.entry number)) :=
  holds.inode _ (place.mem_entries member)

theorem Holds.isDir_item :
    volume.isDir (ofNat item.number) = decide (item.node.content = .dir) := by
  rw [isDir, holds.inode_item place member]
  obtain ⟨name, found, node⟩ := item
  cases node with
  | file | dir => rfl

end

/-- Where following a path through the store's directories leads. -/
def Follows (volume : KFS) (listing : Listing) (path : List Bytes) (number : Nat)
    (rest : List Bytes) : Option Node → Prop
  | some (.dir below) =>
    ∃ found, volume.walkDirs (ofNat number) rest = .ok (ofNat found) ∧
      At listing (path ++ rest) found (.dir below)
  | _ => ∃ failure, volume.walkDirs (ofNat number) rest = .error failure

theorem readInode_cached {ino : UInt32} {node : Inode} {data : Bytes}
    (recorded : volume.inodes ino = some node) (size : node.size.toNat = data.length)
    (cached : volume.data ino = data) (off : UInt64) (count : Nat) :
    (KFS.readInode ino off count volume).1 = .ok ((data.drop off.toNat).take count) := by
  have fits : volume.sizeOf ino = data.length := by rw [KFS.sizeOf, recorded, ← size]; rfl
  rw [KFS.readInode_source, KFS.source, fits, cached, if_pos le_rfl, take_length]
  split
  next past => rw [drop_eq_nil_of_le past, take_nil]
  next => rfl

variable (linked : Linked volume.toTree (listing.allEntries.map entryLink))
  (holds : Holds volume.toTree listing.allEntries)
  (apart : ∀ found, IsDirectory listing.allEntries found → Apart listing.allEntries found)
include linked holds apart

theorem follows_find {rest : List Bytes} (place : At listing path number (.dir contents)) :
    Follows volume listing path number rest ((dir contents).find rest) := by
  induction rest generalizing path number contents with
  | nil =>
    rw [find]
    exact ⟨number, rfl, by rwa [append_nil]⟩
  | cons name rest hypothesis =>
    have found := lookup_apart linked place (apart _ (place.isDirectory rfl)) name
    rw [find, contents.get_eq (number + 1)]
    cases search : (contents.items (number + 1)).find? (·.name = name) with
    | none =>
      rw [search] at found
      refine ⟨.noEntry, ?_⟩
      rw [walkDirs, found]
      rfl
    | some item =>
      rw [search] at found
      have member := mem_of_find?_eq_some search
      have named : item.name = name := by simpa using List.find?_some search
      have kind := holds.isDir_item place member
      have next := place.step member
      obtain ⟨itemName, itemNumber, node⟩ := item
      subst named
      cases node with
      | file data =>
        have stopped : volume.walkDirs (ofNat number) (itemName :: rest) = .error .notDir := by
          rw [walkDirs, found]
          simp [kind, content]
        cases rest with
        | nil | cons => exact ⟨_, stopped⟩
      | dir below =>
        have onward := hypothesis next
        have walked : volume.walkDirs (ofNat number) (itemName :: rest) =
            volume.walkDirs (ofNat itemNumber) rest := by
          rw [walkDirs, found]
          simp [kind, content]
        simp only [Option.map_some]
        unfold Follows at onward ⊢
        rw [walked]
        rw [append_assoc] at onward
        exact onward

variable (small : ∀ entry ∈ listing.allEntries, SmallEntry entry)
include small

theorem shows_item {way : List Bytes} (proper : ∀ part ∈ way ++ [item.name], ProperName part)
    (walked : volume.walkDirs rootIno way = .ok (ofNat number))
    (place : At listing way number (.dir contents)) (member : item ∈ contents.items (number + 1))
    (found : volume.lookup (ofNat number) item.name = some (ofNat item.number)) :
    ShowsNode volume (joinPath (way ++ [item.name])) item.node := by
  have recorded := holds.inode_item place member
  have kind := holds.isDir_item place member
  have inside := place.mem_entries member
  have stat := volume.stat_join proper
  rw [walked] at stat
  simp only [found, recorded, Option.isNone_some, Bool.false_eq_true, if_false, KFS.statOf] at stat
  obtain ⟨name, itemNumber, node⟩ := item
  cases node with
  | file data =>
    have fits : (ofNat data.length).toNat = data.length := by
      rw [toNat_ofNat']
      exact Nat.mod_eq_of_lt (small _ inside).2
    refine ⟨⟨_, stat, rfl, fits⟩, ?_⟩
    intro off count
    by_cases wanted : count = 0
    · subst wanted
      rw [take_zero]
      rfl
    rw [volume.readFile_join proper off wanted, walked]
    simp only [found, kind, content, reduceCtorEq, decide_false, Bool.false_eq_true, if_false]
    exact readInode_cached recorded fits (holds.bytes _ inside data rfl) off count
  | dir below =>
    refine ⟨⟨_, stat, rfl⟩, volume.entries (ofNat itemNumber), ?_, ?_⟩
    · have reached : volume.walkFrom rootIno (way ++ [name]) = some (ofNat itemNumber) := by
        rw [walkFrom_append, walkFrom_of_walkDirs walked,
          Option.bind_some, walkFrom, found]
        rfl
      rw [volume.list_join proper (by simp), reached]
      simp [kind, content]
    · have here := place.step member
      rw [names_apart linked here (apart _ (here.isDirectory rfl))]

theorem shows_tree : ShowsTree volume listing := by
  intro names proper
  rcases eq_nil_or_concat names with rfl | ⟨way, name, rfl⟩
  · refine ⟨⟨_, rfl, rfl⟩, _, rfl, ?_⟩
    rw [← names_apart linked .root (apart _ (.inl rfl))]
    rfl
  · rw [concat_eq_append] at proper ⊢
    have follow : Follows volume listing [] rootNumber way _ :=
      follows_find linked holds apart .root
    have stat := volume.stat_join proper
    rw [rootIno_eq] at stat
    rw [find_append]
    cases led : (dir listing).find way with
    | none =>
      rw [led] at follow
      obtain ⟨failure, stopped⟩ := follow
      exact ⟨failure, by rw [stat, stopped]⟩
    | some node =>
      rw [led] at follow
      cases node with
      | file data =>
        obtain ⟨failure, stopped⟩ := follow
        exact ⟨failure, by rw [stat, stopped]⟩
      | dir contents =>
        obtain ⟨number, walked, place⟩ := follow
        have found := lookup_apart linked place (apart _ (place.isDirectory rfl)) name
        simp only [Option.bind_some, find]
        rw [contents.get_eq (number + 1)]
        cases search : (contents.items (number + 1)).find? (·.name = name) with
        | none =>
          rw [search] at found
          refine ⟨.noEntry, ?_⟩
          rw [stat, walked]
          simp [found]
        | some item =>
          rw [search] at found
          have named : item.name = name := by simpa using List.find?_some search
          subst named
          exact shows_item linked holds apart small proper walked place
            (mem_of_find?_eq_some search) found

end Shown

end KernelLane.Kfs
