import KernelLane.KfsSeedMount
import KernelLane.KfsSeedShown

namespace KernelLane.Kfs

open List UInt32 Tree

/-!
# When a seeded volume shows the host tree

The tree is shown exactly when every name and size can be recorded, when the
components of the path it goes to are ones that path resolution keeps, and
when the inode numbers, which wrap around at 32 bits, do not mix up two
directories or two files.
-/

/-! ## What a store that shows a tree must hold -/

section Needs

variable {volume : KFS} {listing : Listing} {path way : List Bytes} {name : Bytes} {node : Node}
  {number : Nat}
  {contents : Listing}

theorem ShowsTree.at (shows : ShowsTree volume listing) (wellNamed : listing.WellNamed)
    (place : At listing path number node) : ShowsNode volume (joinPath path) node := by
  have here := shows path (place.proper wellNamed)
  rwa [place.find wellNamed] at here

theorem ShowsNode.stat {path : Bytes} (shows : ShowsNode volume path node) :
    ∃ info, volume.stat path = .ok info := by
  cases node with
  | file | dir =>
    obtain ⟨⟨info, found, _⟩, _⟩ := shows
    exact ⟨info, found⟩

def nodeAttr : Node → UInt8
  | .file _ => 0
  | .dir _ => attrDir

theorem ShowsNode.attr {path : Bytes} {info : StatInfo} (shows : ShowsNode volume path node)
    (stat : volume.stat path = .ok info) : info.attr = nodeAttr node := by
  cases node with
  | file data =>
    obtain ⟨⟨other, found, attr, _⟩, _⟩ := shows
    rw [stat] at found
    cases found
    exact attr
  | dir contents =>
    obtain ⟨⟨other, found, attr⟩, _⟩ := shows
    rw [stat] at found
    cases found
    exact attr

theorem ShowsNode.resolves (proper : ∀ part ∈ way ++ [name], ProperName part)
    (shows : ShowsNode volume (joinPath (way ++ [name])) node) :
    ∃ parent ino, volume.walkDirs rootIno way = .ok parent ∧ volume.lookup parent name = some ino ∧
      volume.stat (joinPath (way ++ [name])) = .ok (volume.statOf name ino) := by
  obtain ⟨info, found⟩ := shows.stat
  have stat := volume.stat_join proper
  rw [found] at stat
  cases walked : volume.walkDirs rootIno way with
  | error failure => simp [walked] at stat
  | ok parent =>
    cases search : volume.lookup parent name with
    | none => simp [walked, search] at stat
    | some ino =>
      refine ⟨parent, ino, rfl, search, ?_⟩
      rw [found]
      simp only [walked, search] at stat
      split at stat
      · cases stat
      · exact stat

theorem ShowsNode.listed {ino : UInt32} (proper : ∀ part ∈ path, ProperName part)
    (shows : ShowsNode volume (joinPath path) (.dir contents))
    (walked : volume.walkFrom rootIno path = some ino) :
    ((volume.entries ino).map StatInfo.name).Perm contents.names := by
  obtain ⟨_, infos, list, same⟩ := shows
  by_cases root : path = []
  · subst root
    cases walked
    cases list
    exact same
  · rw [volume.list_join proper root, walked] at list
    dsimp only at list
    split at list
    · cases list
      exact same
    · cases list

theorem ShowsTree.small {device : BlockDev} (shows : ShowsTree volume listing)
    (mounted : mountKFS device = .mounted volume) (wellNamed : listing.WellNamed) :
    ∀ entry ∈ listing.allEntries, SmallEntry entry := by
  intro entry member
  obtain ⟨way, below, item, above, inside, same⟩ := At.of_mem_entries member
  have place := above.step inside
  have here := shows.at wellNamed place
  obtain ⟨parent, ino, _, found, _⟩ := here.resolves (place.proper wellNamed)
  obtain ⟨link, linked, _, named⟩ := lookup_mem found
  have short := names_mounted mounted link linked
  rw [named] at short
  rw [same]
  refine ⟨short, ?_⟩
  obtain ⟨name, number, node⟩ := item
  cases node with
  | file data =>
    obtain ⟨⟨info, _, _, size⟩, _⟩ := here
    change data.length < 2 ^ 32
    rw [← size]
    exact info.size.toNat_lt
  | dir contents => exact Nat.two_pow_pos 32

section

variable (shows : ShowsTree volume listing)
  (linked : Linked volume.toTree (listing.allEntries.map entryLink)) (wellNamed : listing.WellNamed)
include shows linked wellNamed

theorem ShowsTree.apart (place : At listing path number (.dir contents))
    (walked : volume.walkFrom rootIno path = some (ofNat number)) :
    Apart listing.allEntries number := by
  have same := ((shows.at wellNamed place).listed (place.proper wellNamed) walked).length_eq
  rw [entries_linked linked, length_map, length_map, ← contents.names_items (number + 1),
    length_map, ← length_map (Item.entry number), ← place.filter_entries] at same
  have part : (listing.allEntries.filter (·.parent = number)).Sublist (listing.allEntries.filter
      (ofNat ·.parent = ofNat number)) := by
    apply monotone_filter_right
    intro entry parent
    simp only [decide_eq_true_eq] at parent ⊢
    rw [parent]
  have equal := part.eq_of_length same.symm
  intro entry member shared
  have inside : entry ∈ listing.allEntries.filter (ofNat ·.parent = ofNat number) := by
    simp [member, shared]
  rw [← equal, mem_filter, decide_eq_true_eq] at inside
  exact inside.2

theorem ShowsTree.reaches (place : At listing path number node) :
    volume.walkFrom rootIno path = some (ofNat number) := by
  induction place with
  | root => rfl
  | @step path number contents item place member hypothesis =>
    have apart := shows.apart linked wellNamed place hypothesis
    have found := lookup_apart linked place apart item.name
    rw [Listing.find_item (place.wellNamed wellNamed rfl) member] at found
    rw [walkFrom_append, hypothesis, Option.bind_some, walkFrom, found]
    rfl

end

theorem ShowsTree.resolved {item : Item} (shows : ShowsTree volume listing)
    (linked : Linked volume.toTree (listing.allEntries.map entryLink))
    (wellNamed : listing.WellNamed) (place : At listing way number (.dir contents))
    (member : item ∈ contents.items (number + 1)) : volume.stat (joinPath (way ++ [item.name])) =
        .ok (volume.statOf item.name (ofNat item.number)) ∧
      ∀ off count, count ≠ 0 → (KFS.readFile (joinPath (way ++ [item.name])) off count volume).1 =
        if volume.isDir (ofNat item.number) then .error .isDir
        else (KFS.readInode (ofNat item.number) off count volume).1 := by
  have here := place.step member
  have proper := here.proper wellNamed
  obtain ⟨parent, ino, walked, found, stat⟩ := (shows.at wellNamed here).resolves proper
  have reached := shows.reaches linked wellNamed here
  rw [walkFrom_append, walkFrom_of_walkDirs walked,
    Option.bind_some, walkFrom, found] at reached
  cases reached
  refine ⟨stat, fun off count wanted => ?_⟩
  rw [volume.readFile_join proper off wanted, walked]
  simp only [found]
  split
  · rfl
  · rfl

theorem KFS.statOf_rename (volume : KFS) (first second : Bytes) (ino : UInt32) :
    (volume.statOf first ino).attr = (volume.statOf second ino).attr ∧
      (volume.statOf first ino).size = (volume.statOf second ino).size := by
  unfold KFS.statOf
  split <;> exact ⟨rfl, rfl⟩

/-- Entries that share a number and are both shown have the same contents. -/
theorem ShowsTree.sameContent (shows : ShowsTree volume listing)
    (linked : Linked volume.toTree (listing.allEntries.map entryLink))
    (wellNamed : listing.WellNamed) : SameContent listing.allEntries := by
  intro first firstMember second secondMember same
  obtain ⟨firstWay, firstBelow, firstItem, firstAbove, firstInside,
    firstEntry⟩ := At.of_mem_entries firstMember
  obtain ⟨secondWay, secondBelow, secondItem, secondAbove, secondInside,
    secondEntry⟩ := At.of_mem_entries secondMember
  rw [firstEntry, secondEntry] at same ⊢
  obtain ⟨firstStat, firstRead⟩ := shows.resolved linked wellNamed firstAbove firstInside
  obtain ⟨secondStat, secondRead⟩ := shows.resolved linked wellNamed secondAbove secondInside
  have firstShown := shows.at wellNamed (firstAbove.step firstInside)
  have secondShown := shows.at wellNamed (secondAbove.step secondInside)
  have rename := volume.statOf_rename firstItem.name secondItem.name (ofNat firstItem.number)
  change ofNat firstItem.number = ofNat secondItem.number at same
  rw [same] at firstStat firstRead rename
  obtain ⟨firstName, firstNumber, firstNode⟩ := firstItem
  obtain ⟨secondName, secondNumber, secondNode⟩ := secondItem
  have kinds := rename.1
  rw [firstShown.attr firstStat, secondShown.attr secondStat] at kinds
  cases firstNode with
  | dir firstContents =>
    cases secondNode with
    | dir secondContents => rfl
    | file secondData => exact absurd kinds (show attrDir ≠ 0 by decide)
  | file firstData =>
    cases secondNode with
    | dir secondContents => exact absurd kinds (show 0 ≠ attrDir by decide)
    | file secondData =>
      obtain ⟨⟨_, firstFound, _, firstSize⟩, firstBytes⟩ := firstShown
      obtain ⟨⟨_, secondFound, _, secondSize⟩, secondBytes⟩ := secondShown
      rw [firstStat] at firstFound
      rw [secondStat] at secondFound
      cases firstFound
      cases secondFound
      have lengths : firstData.length = secondData.length := by
        rw [← firstSize, ← secondSize, rename.2]
      change Content.file firstData = Content.file secondData
      by_cases empty : firstData = []
      · subst empty
        rw [eq_nil_of_length_eq_zero lengths.symm]
      have wanted : firstData.length ≠ 0 := by rwa [ne_eq, length_eq_zero_iff]
      have bytes := firstBytes 0 firstData.length
      rw [firstRead 0 _ wanted, ← secondRead 0 _ wanted, secondBytes 0 firstData.length] at bytes
      simp only [UInt64.toNat_zero, drop_zero, take_length, Except.ok.injEq] at bytes
      rw [← bytes, lengths, take_length]

theorem ShowsTree.listed_above {host : Listing} {before rest : List Bytes} {ino : UInt32}
    (shows : ShowsTree volume (host.graft (before ++ rest)))
    (proper : ∀ name ∈ before ++ rest, ProperName name)
    (walked : volume.walkFrom rootIno before = some ino) :
    ((volume.entries ino).map StatInfo.name).Perm (host.graft rest).names := by
  have front : ∀ name ∈ before, ProperName name := fun name member =>
    proper name (mem_append_left _ member)
  have here := shows before front
  rw [host.find_graft] at here
  exact here.listed front walked

theorem ShowsTree.chain_proper {host : Listing} {links : List Dirent}
    {before todo kept : List Bytes} {part : Bytes} {parent next : Nat}
    (shows : ShowsTree volume (host.graft (before ++ (todo ++ kept)))) (wellNamed : host.WellNamed)
    (proper : ∀ name ∈ before ++ (todo ++ kept), ProperName name)
    (linked : Linked volume.toTree links)
    (chain : ∀ entry ∈ chainEntries parent next (todo ++ [part]), entryLink entry ∈ links)
    (walked : volume.walkFrom rootIno before = some (ofNat parent)) : ProperName part := by
  have listed := shows.listed_above proper walked
  induction todo generalizing before parent next with
  | nil =>
    have last := chain ⟨parent, part, next, .dir⟩ (by simp [chainEntries])
    have shown : part ∈ (volume.entries (ofNat parent)).map StatInfo.name := by
      rw [linked.entries, map_map, mem_map]
      refine ⟨_, mem_filter.mpr ⟨last, ?_⟩, volume.name_statOf _ _⟩
      simp [entryLink]
    have named : (host.graft kept).WellNamed :=
      wellNamed.graft fun name member => proper name (mem_append_right _ member)
    rw [nil_append, ← (host.graft kept).names_items 0] at listed
    obtain ⟨item, member, rfl⟩ := mem_map.mp (listed.subset shown)
    exact (named.of_item member).1
  | cons name rest hypothesis =>
    -- The directory lists one name, so the link of the chain is its only one.
    have only : links.filter (·.parent = ofNat parent) =
        [entryLink ⟨parent, name, next, .dir⟩] := by
      have count := listed.length_eq
      rw [length_map, linked.entries, length_map] at count
      obtain ⟨link, single⟩ := length_eq_one_iff.mp count
      have member : entryLink ⟨parent, name, next, .dir⟩ ∈
          links.filter (·.parent = ofNat parent) := by
        refine mem_filter.mpr ⟨chain _ ?_, ?_⟩
        · simp [chainEntries]
        · simp [entryLink]
      rw [single, mem_singleton] at member
      rw [single, member]
    have found : volume.lookup (ofNat parent) name = some (ofNat next) := by
      rw [linked.lookup, only]
      simp [entryLink]
    have onward : volume.walkFrom rootIno (before ++ [name]) = some (ofNat next) := by
      rw [walkFrom_append, walked, Option.bind_some, walkFrom, found]
      rfl
    have shape : before ++ (name :: rest ++ kept) = before ++ [name] ++ (rest ++ kept) := by simp
    rw [shape] at shows proper
    exact hypothesis shows proper
      (fun entry member => chain entry (mem_cons_of_mem _ member))
      onward (shows.listed_above proper onward)

end Needs

/-! ## Seeded volumes -/

theorem filled_seedPuts {entries : List Entry} (nonempty : entries ≠ []) (puts : List Put) :
    22 ≤ ((seedPuts entries ++ puts).map (·.record.size)).sum := by
  cases entries with
  | nil => exact absurd rfl nonempty
  | cons entry rest =>
    obtain ⟨parent, name, number, content⟩ := entry
    cases content <;> simp [seedPuts_cons, entryPuts, Put.record, inodeRecord, Record.size, hdrLen]

theorem small_chainEntries {parts : List Bytes} (short : ∀ part ∈ parts, part.length ≤ maxName)
    (parent number : Nat) : ∀ entry ∈ chainEntries parent number parts, SmallEntry entry := by
  induction parts generalizing parent number with
  | nil => simp [chainEntries]
  | cons part rest hypothesis =>
    rw [forall_mem_cons] at short
    exact forall_mem_cons.mpr ⟨⟨short.1, Nat.two_pow_pos 32⟩, hypothesis short.2 _ _⟩

theorem filled_allEntries (entries : List Entry) : seedPuts entries = [] ∨
    22 ≤ ((seedPuts entries).map (·.record.size)).sum := by
  by_cases empty : entries = []
  · subst empty
    exact .inl rfl
  have filled := filled_seedPuts empty []
  rw [append_nil] at filled
  exact .inr filled

section Seeded

variable {vol seeded : BlockDev} {above : Bytes} {host : HostTree} {volume : KFS}

theorem linked_of_lays {puts : List Put} {after : Bytes → Option UInt32} (zeroed : ZeroedLog vol)
    (seeds : seedKFS vol above host = .ok seeded) (mounted : mountKFS seeded = .mounted volume)
    (lays : Lays (seedTree above host) (ofNat (rootNumber + 1)) puts (fun f => ⟨f, after⟩))
    (short : ∀ put ∈ puts, put.Short) (filled : puts = [] ∨ 22 ≤ (puts.map (·.record.size)).sum) :
    Linked volume.toTree (puts.filterMap Put.link) := by
  obtain ⟨other, otherMounted, alike⟩ := mount_seeded lays seeds short zeroed filled
  rw [mounted] at otherMounted
  cases otherMounted
  have linked := Linked.empty.foldl_put puts
  exact linked.of_alike alike

theorem short_of_small {names : List Bytes} (cleaned : cleanParts (pathParts above) = some names)
    (small : ∀ entry ∈ (host.listing.graft names).allEntries, SmallEntry entry) :
    ∀ part ∈ pathParts above, part.length ≤ maxName := by
  intro part member
  rcases mem_of_cleanParts cleaned member with rfl | rfl | kept
  · exact Nat.zero_le _
  · decide
  · rw [← names_chainEntries names rootNumber (rootNumber + 1)] at kept
    obtain ⟨entry, inside, rfl⟩ := mem_map.mp kept
    refine (small entry ?_).1
    rw [Listing.allEntries, entries_graft]
    exact mem_append_left _ inside

/-- Path resolution keeps the components of a path whose tree is shown. -/
theorem proper_of_shows {names : List Bytes} (zeroed : ZeroedLog vol)
    (seeds : seedKFS vol above host = .ok seeded) (mounted : mountKFS seeded = .mounted volume)
    (cleaned : cleanParts (pathParts above) = some names)
    (shows : ShowsTree volume (host.listing.graft names)) :
    ∀ part ∈ pathParts above, ProperName part := by
  have proper := proper_of_cleanParts (fun _ => not_mem_of_pathParts) cleaned
  have small := shows.small mounted (host.wellNamed.graft proper)
  cases search : (pathParts above).find? (¬ProperName ·) with
  | none =>
    intro part member
    simpa using List.find?_eq_none.mp search part member
  | some part =>
    obtain ⟨improper, good, rest, split, front⟩ := List.find?_eq_some_iff_append.mp search
    have goodProper : ∀ name ∈ good, ProperName name := by
      intro name member
      simpa using front name member
    have short := short_of_small cleaned small
    obtain ⟨kept, _, rfl⟩ : ∃ kept, cleanParts (part :: rest) = some kept ∧
        good ++ kept = names := by
      rw [split, cleanParts_append goodProper] at cleaned
      exact Option.map_eq_some_iff.mp cleaned
    rw [Listing.allEntries, entries_graft] at small
    have started (none : good = []) : part ≠ [] := by
      rw [none] at split
      exact pathParts_head split
    obtain ⟨puts, after, lays, shortLater⟩ :=
      Lays.seedTree_any host split (fun name member => (goodProper name member).plain) started short
        fun entry member => small entry (mem_append_right _ member)
    have chainShort : ∀ name ∈ good ++ [part], name.length ≤ maxName := by
      intro name member
      refine short name ?_
      rw [split, append_cons]
      exact mem_append_left _ member
    have chainSmall := small_chainEntries chainShort rootNumber (rootNumber + 1)
    have linked :=
      linked_of_lays zeroed seeds mounted lays
        (forall_mem_append.mpr ⟨short_seedPuts chainSmall, shortLater⟩)
        (.inr (filled_seedPuts (by rw [chainEntries_snoc]; simp) puts))
    rw [filterMap_append, links_seedPuts] at linked
    have fromRoot : ShowsTree volume (host.listing.graft ([] ++ (good ++ kept))) := shows
    have partProper :=
      fromRoot.chain_proper host.wellNamed proper linked (fun entry member =>
        mem_append_left _ (mem_map_of_mem member)) rfl
    simp [partProper] at improper

section

variable (zeroed : ZeroedLog vol) (seeds : seedKFS vol above host = .ok seeded)
include zeroed seeds

theorem seedable_of_shows (shown : SeedShows seeded above host) : Seedable above host := by
  obtain ⟨volume, names, mounted, split, shows⟩ := shown
  have cleaned : cleanParts (pathParts above) = some names := by
    rw [splitPath_trim] at split
    cases clean : cleanParts (pathParts above) with
    | none => simp [clean] at split
    | some parts => simpa [clean] using split
  have proper := proper_of_shows zeroed seeds mounted cleaned shows
  rw [cleanParts_of_proper proper] at cleaned
  cases cleaned
  have wellNamed := host.wellNamed.graft proper
  have small := shows.small mounted wellNamed
  obtain ⟨after, lays⟩ := Lays.seedTree host fun part member => (proper part member).plain
  have linked :=
    linked_of_lays zeroed seeds mounted lays (short_seedPuts small) (filled_allEntries _)
  rw [links_seedPuts] at linked
  refine ⟨proper, small, shows.sameContent linked wellNamed, ?_⟩
  intro number directory
  obtain ⟨path, contents, place⟩ := directory.place
  exact shows.apart linked wellNamed place (shows.reaches linked wellNamed place)

theorem shows_of_seedable (seedable : Seedable above host) : SeedShows seeded above host := by
  obtain ⟨proper, small, sameContent, apart⟩ := seedable
  obtain ⟨after, lays⟩ := Lays.seedTree host fun part member => (proper part member).plain
  obtain ⟨volume, mounted, alike⟩ :=
    mount_seeded lays seeds (short_seedPuts small) zeroed (filled_allEntries _)
  refine ⟨volume, pathParts above, mounted, ?_, ?_⟩
  · rw [splitPath_trim, cleanParts_of_proper proper]
  · have linked :=
      linked_of_lays zeroed seeds mounted lays (short_seedPuts small) (filled_allEntries _)
    rw [links_seedPuts] at linked
    have holds := holds_empty.enterAll small sameContent
    exact shows_tree linked (holds.of_alike alike) apart small

/--
A seeded volume shows the host tree below the given path exactly when the
tree is seedable.
-/
theorem seed_shows_iff : SeedShows seeded above host ↔ Seedable above host :=
  ⟨seedable_of_shows zeroed seeds, shows_of_seedable zeroed seeds⟩

end

end Seeded

def smallHost : HostTree :=
  ⟨.file [97] [1, 2, 3] (.dir [98] (.file [97] [] .nil) .nil),
    by decide, by decide, by decide, by decide, ⟨by decide, by decide, trivial⟩,
    trivial⟩

def smallPath : Bytes := [slash, 112]

theorem smallHost_seedable : Seedable smallPath smallHost := by
  refine ⟨by decide, by decide, by decide, ?_⟩
  rintro number (rfl | ⟨entry, member, _, rfl⟩)
  · decide
  · have all : ∀ entry ∈ (smallHost.listing.graft (pathParts smallPath)).allEntries,
        Apart (smallHost.listing.graft (pathParts smallPath)).allEntries entry.number := by
      decide
    exact all entry member

/-- A zeroed device takes a small tree and shows it. -/
theorem smallHost_shown : ∃ seeded, seedKFS zeroDevice smallPath smallHost = .ok seeded ∧
    SeedShows seeded smallPath smallHost := by
  obtain ⟨after, lays⟩ :=
    Lays.seedTree smallHost fun part member => (smallHost_seedable.proper part member).plain
  obtain ⟨seeded, seeds⟩ :=
    seedKFS_of_room lays (show 16 ≤ zeroDevice.numBlocks.toNat by decide)
      (by rw [zeroDevice_limit]; decide +kernel)
  exact ⟨seeded, seeds, (seed_shows_iff zeroDevice_zeroed seeds).mpr smallHost_seedable⟩

/-! ## A file that is too long -/

theorem sum_chunkPuts_le (ino : UInt32) (data : Bytes) (fuel off : Nat) :
    ((chunkPuts ino data fuel off).map fun put => put.record.size + 13).sum ≤
      data.length - off + 38 * fuel := by
  induction fuel generalizing off with
  | zero => simp [chunkPuts]
  | succ fuel hypothesis =>
    unfold chunkPuts
    split
    · have later := hypothesis (off + chunk)
      have piece : (Put.data ino (UInt64.ofNat off) ((data.drop off).take chunk)).record.size =
          25 + min chunk (data.length - off) := by
        simp [Put.record, dataRecord, Record.size, hdrLen]
        omega
      rw [map_cons, sum_cons]
      omega
    · simp

def oneFile (data : Bytes) : HostTree :=
  ⟨.file [97] data .nil, by decide, by simp [Listing.names], trivial⟩

def largeDevice : BlockDev := ⟨2 ^ 30, fun _ => 0⟩

theorem largeDevice_limit : logLimit largeDevice.numBlocks = 2 ^ 39 := by
  unfold logLimit largeDevice
  decide

theorem oneFile_seeds {data : Bytes} (fits : data.length ≤ 2 ^ 32) :
    ∃ seeded, seedKFS largeDevice [slash] (oneFile data) = .ok seeded := by
  have noParts : pathParts [slash] = [] := by decide
  obtain ⟨after, lays⟩ :=
    Lays.seedTree (oneFile data) (show ∀ part ∈ pathParts [slash], PlainName part by simp [noParts])
  rw [noParts] at lays
  refine seedKFS_of_room lays (show 16 ≤ largeDevice.numBlocks.toNat by decide) ?_
  have pieces := sum_chunkPuts_le (ofNat (rootNumber + 1)) data (data.length + 1) 0
  have inodeSize (node : Inode) : (Put.inode node).record.size = 22 := by
    simp [Put.record, inodeRecord, Record.size, hdrLen]
  have direntSize : (Put.dirent (ofNat rootNumber) [97]
      (ofNat (rootNumber + 1))).record.size = 21 := by
    decide
  have entries : ((oneFile data).listing.graft []).allEntries =
      [⟨rootNumber, [97], rootNumber + 1, .file data⟩] :=
    rfl
  rw [largeDevice_limit, entries, seedPuts_cons]
  simp only [entryPuts, map_cons, map_append, sum_cons, sum_append, inodeSize]
  simp only [seedPuts, flatMap_nil, map_nil, sum_nil, logStart]
  omega

/--
A file of 4 GiB is seeded, but its recorded size is zero, so the volume does
not show it.
-/
theorem long_file_not_shown : ZeroedLog largeDevice ∧ ∃ seeded, seedKFS largeDevice [slash]
        (oneFile (replicate (2 ^ 32) 0)) = .ok seeded ∧
    ¬ SeedShows seeded [slash] (oneFile (replicate (2 ^ 32) 0)) := by
  have zeroed : ZeroedLog largeDevice := fun _ _ _ => rfl
  generalize contents : replicate (2 ^ 32) (0 : UInt8) = data
  have size : data.length = 2 ^ 32 := by rw [← contents, length_replicate]
  obtain ⟨seeded, seeds⟩ := oneFile_seeds (Nat.le_of_eq size)
  refine ⟨zeroed, seeded, seeds, ?_⟩
  intro shown
  have small := (seedable_of_shows zeroed seeds shown).small
  have tooLong : data.length < 2 ^ 32 :=
    (small ⟨rootNumber, [97], rootNumber + 1, .file data⟩ mem_cons_self).2
  omega

end KernelLane.Kfs
