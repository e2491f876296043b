import Mathlib.Data.List.Infix
import OpenApi.Disk
import OpenApi.Proofs.Except

/-
What happens to a disk.

Folders that are made lie beside everything that was there (`Grows`), and making them once more
changes nothing (`makeFolders_again`).  A file is written at the end of its way and nowhere else;
there it is found when the way is followed again (`read_enter`).
-/
namespace OpenApi.Disk

/-- Whether a place is a folder, and so are all places on the way to it. -/
def Reaches (disk : Disk) (place : Place) : Prop := ∀ p, p <+: place → disk.isFolder p = true

/-- Whether a disk has all that another one has, and besides that only folders. -/
structure Grows (before after : Disk) : Prop where
  kept : ∀ {p x}, before.find? p = some x → after.find? p = some x
  folder : ∀ {p x}, before.find? p = none → after.find? p = some x → x = .folder

/-- Whether no folder of a disk is lost on another one. -/
def KeepsFolders (before after : Disk) : Prop :=
  ∀ p, before.isFolder p = true → after.isFolder p = true

variable {disk before after : Disk} {here place p : Place} {names rest : List String}
  {name : String} {folder path : Path} {bytes : List UInt8} {item : Item}

theorem isFolder_iff : disk.isFolder p = true ↔ disk.find? p = some .folder := by
  unfold isFolder
  split <;> simp_all

theorem bytes?_eq_some_iff : disk.bytes? p = some bytes ↔ disk.find? p = some (.file bytes) := by
  unfold bytes?
  split <;> simp_all

theorem Reaches.of_prefix (h : disk.Reaches place) (hp : p <+: place) : disk.Reaches p :=
  fun q hq => h q (hq.trans hp)

theorem Reaches.isFolder (h : disk.Reaches place) : disk.isFolder place = true :=
  h place (List.prefix_refl place)

theorem KeepsFolders.refl (disk : Disk) : disk.KeepsFolders disk := fun _ h => h

theorem KeepsFolders.trans {middle : Disk} (h : before.KeepsFolders middle)
    (h' : middle.KeepsFolders after) : before.KeepsFolders after :=
  fun p hp => h' p (h p hp)

theorem KeepsFolders.reaches (h : before.KeepsFolders after) (reached : before.Reaches place) :
    after.Reaches place :=
  fun p hp => h p (reached p hp)

theorem Grows.refl (disk : Disk) : disk.Grows disk :=
  ⟨id, fun hnone hsome => nomatch hnone.symm.trans hsome⟩

theorem Grows.trans {middle : Disk} (h : before.Grows middle) (h' : middle.Grows after) :
    before.Grows after := by
  refine ⟨fun hx => h'.kept (h.kept hx), fun {p x} hnone hx => ?_⟩
  cases hmiddle : middle.find? p with
  | none => exact h'.folder hmiddle hx
  | some y =>
    cases h.folder hnone hmiddle
    exact (Option.some.inj ((h'.kept hmiddle).symm.trans hx)).symm

theorem Grows.keepsFolders (h : before.Grows after) : before.KeepsFolders after :=
  fun _ hp => isFolder_iff.mpr (h.kept (isFolder_iff.mp hp))

/-- The files are the same. -/
theorem Grows.bytes? (h : before.Grows after) (p : Place) : after.bytes? p = before.bytes? p := by
  refine Option.ext fun bytes => ?_
  rw [bytes?_eq_some_iff, bytes?_eq_some_iff]
  refine ⟨fun hafter => ?_, h.kept⟩
  cases hbefore : before.find? p with
  | none => cases h.folder hbefore hafter
  | some x => exact (h.kept hbefore).symm.trans hafter

/-! ### Putting something at a place -/

/-- Elsewhere nothing changes, unless folders appear on the way. -/
theorem find?_put_of_ne (hne : p ≠ place) (way : p <+: place → disk.find? p ≠ none) (item : Item) :
    (disk.put place item).find? p = disk.find? p := by
  have hlisted : (disk.put place item).items.find? (·.1 == p) = disk.items.find? (·.1 == p) := by
    have hplace : (place == p) = false := beq_false_of_ne hne.symm
    rw [put, List.find?_cons_of_neg (by simp [hplace]), List.find?_filter]
    congr 1
    funext e
    by_cases he : e.1 = p
    · simp [he, hne]
    · simp [he]
  rw [find?, find?, hlisted]
  cases hfound : disk.items.find? (·.1 == p) with
  | some e => rfl
  | none =>
    dsimp only
    by_cases hprefix : p <+: place
    · have hany : (disk.put place item).items.any (fun e => p.isPrefixOf e.1) = true :=
        List.any_cons.trans (by simp [List.isPrefixOf_iff_prefix.mpr hprefix])
      have hsome := way hprefix
      rw [find?, hfound] at hsome
      rw [if_pos hany]
      dsimp only at hsome
      split at hsome
      · rw [if_pos ‹_›]
      · rw [if_neg ‹_›]
        split at hsome
        · rw [if_pos ‹_›]
        · exact absurd rfl hsome
    · have hany : (disk.put place item).items.any (fun e => p.isPrefixOf e.1) =
          disk.items.any fun e => p.isPrefixOf e.1 := by
        rw [put, List.any_cons, List.any_filter]
        have hfalse : p.isPrefixOf place = false :=
          Bool.eq_false_iff.mpr fun h => hprefix (List.isPrefixOf_iff_prefix.mp h)
        rw [hfalse, Bool.false_or]
        congr 1
        funext e
        by_cases he : e.1 = place <;> simp [he, hfalse]
      rw [hany]

/-- In a folder that is reached, nothing changes but what is put there. -/
theorem find?_put_concat (reached : disk.Reaches here) (hne : p ≠ here ++ [name]) (item : Item) :
    (disk.put (here ++ [name]) item).find? p = disk.find? p := by
  refine find?_put_of_ne hne (fun hprefix => ?_) item
  rcases List.prefix_concat_iff.mp hprefix with rfl | hprefix
  · exact absurd rfl hne
  · rw [isFolder_iff.mp (reached p hprefix)]
    exact nofun

theorem grows_put_folder (reached : disk.Reaches here) (free : disk.find? (here ++ [name]) = none) :
    disk.Grows (disk.put (here ++ [name]) .folder) := by
  constructor
  · intro p x hp
    have hne : p ≠ here ++ [name] := by
      rintro rfl
      cases free.symm.trans hp
    rw [find?_put_concat reached hne]
    exact hp
  · intro p x hnone hp
    by_cases heq : p = here ++ [name]
    · rw [heq, find?_put_self] at hp
      exact (Option.some.inj hp).symm
    · rw [find?_put_concat reached heq] at hp
      exact nomatch hnone.symm.trans hp

theorem reaches_concat (reached : disk.Reaches here) (h : disk.isFolder (here ++ [name]) = true) :
    disk.Reaches (here ++ [name]) := by
  intro p hp
  rcases List.prefix_concat_iff.mp hp with rfl | hp
  · exact h
  · exact reached p hp

/-! ### Making folders -/

/-- The place that a name leads to. -/
def goTo (here : Place) (name : String) : Place :=
  if name == ".." then here.dropLast else here ++ [name]

theorem isLongName_up : isLongName ".." = false := by decide

theorem makeFolders_cons (hname : name ≠ "..") : disk.makeFolders here (name :: rest) =
    if isLongName name then .error .longName
    else
      match disk.find? (here ++ [name]) with
      | some .folder => disk.makeFolders (here ++ [name]) rest
      | some (.file _) => .error (if rest.isEmpty then .isFile else .blocked)
      | none => (disk.put (here ++ [name]) .folder).makeFolders (here ++ [name]) rest := by
  rewrite [makeFolders.eq_3 _ _ _ _ hname]
  split
  · rfl
  · cases disk.find? (here ++ [name]) with
    | none => rfl
    | some item => cases item <;> rfl

/-- The first step on the way, and the disk with its folder. -/
theorem exists_step_of_makeFolders (reached : disk.Reaches here)
    (h : disk.makeFolders here (name :: rest) = .ok (place, after)) :
    isLongName name = false ∧ ∃ middle, disk.Grows middle ∧ middle.Reaches (goTo here name) ∧
      middle.makeFolders (goTo here name) rest = .ok (place, after) := by
  unfold goTo
  by_cases hname : name = ".."
  · subst hname
    rw [makeFolders] at h
    exact ⟨isLongName_up, disk, .refl disk, reached.of_prefix (List.dropLast_prefix here), h⟩
  · rw [if_neg (by simpa using hname)]
    rw [makeFolders_cons hname] at h
    split at h
    · cases h
    · rename_i hshort
      refine ⟨by simpa using hshort, ?_⟩
      split at h
      · rename_i hfolder
        exact ⟨disk, .refl disk, reaches_concat reached (isFolder_iff.mpr hfolder), h⟩
      · cases h
      · rename_i hnone
        have hgrows := grows_put_folder reached hnone
        exact ⟨_, hgrows, reaches_concat (hgrows.keepsFolders.reaches reached)
          (isFolder_iff.mpr (find?_put_self _ _ _)), h⟩

/-- Nothing is lost when folders are made, and the last one is reached. -/
theorem grows_of_makeFolders (reached : disk.Reaches here)
    (h : disk.makeFolders here names = .ok (place, after)) :
    disk.Grows after ∧ after.Reaches place := by
  induction names generalizing here disk with
  | nil =>
    cases h
    exact ⟨.refl _, reached⟩
  | cons name rest ih =>
    obtain ⟨_, middle, hgrows, hnext, hrest⟩ := exists_step_of_makeFolders reached h
    obtain ⟨hmore, hplace⟩ := ih hnext hrest
    exact ⟨hgrows.trans hmore, hplace⟩

/-- Once the folders are there, making them changes nothing. -/
theorem makeFolders_again {later : Disk} (reached : disk.Reaches here)
    (h : disk.makeFolders here names = .ok (place, after)) (kept : after.KeepsFolders later) :
    later.makeFolders here names = .ok (place, later) := by
  induction names generalizing here disk with
  | nil =>
    cases h
    rfl
  | cons name rest ih =>
    obtain ⟨hshort, middle, _, hnext, hrest⟩ := exists_step_of_makeFolders reached h
    have hagain := ih hnext hrest
    obtain ⟨hmore, _⟩ := grows_of_makeFolders hnext hrest
    unfold goTo at hagain hnext
    by_cases hname : name = ".."
    · subst hname
      rw [makeFolders]
      exact hagain
    · rw [if_neg (by simpa using hname)] at hagain hnext
      have hfolder := kept _ (hmore.keepsFolders _ hnext.isFolder)
      rw [makeFolders_cons hname, isFolder_iff.mp hfolder, hshort]
      exact hagain

/-- The way to the folders that have been made can be followed. -/
theorem follow_of_makeFolders {later : Disk} (reached : disk.Reaches here)
    (h : disk.makeFolders here names = .ok (place, after)) (kept : after.KeepsFolders later)
    (more : List String) : later.follow here (names ++ more) = later.follow place more := by
  induction names generalizing here disk with
  | nil =>
    cases h
    rfl
  | cons name rest ih =>
    obtain ⟨hgrows, _⟩ := grows_of_makeFolders reached h
    have hhere := kept _ (hgrows.keepsFolders _ reached.isFolder)
    obtain ⟨hshort, middle, _, hnext, hrest⟩ := exists_step_of_makeFolders reached h
    rw [List.cons_append, follow, hhere, hshort]
    exact ih hnext hrest

/-! ### The way to a file -/

theorem reaches_origin (reached : disk.Reaches here) (path : Path) :
    disk.Reaches (origin here path) := by
  unfold origin
  split
  · exact reached
  · exact reached.of_prefix List.nil_prefix

theorem makeFolders_of_makeWay (h : disk.makeWay here path = .ok (place, after)) :
    path.hasNull = false ∧ path.isLong = false ∧
      disk.makeFolders (origin here path) path.names = .ok (place, after) := by
  unfold makeWay at h
  split at h
  · cases h
  · split at h
    · cases h
    · exact ⟨by simpa using ‹¬ path.hasNull = true›, by simpa using ‹¬ path.isLong = true›, h⟩

theorem grows_of_makeWay (reached : disk.Reaches here)
    (h : disk.makeWay here path = .ok (place, after)) : disk.Grows after ∧ after.Reaches place :=
  grows_of_makeFolders (reaches_origin reached path) (makeFolders_of_makeWay h).2.2

theorem makeWay_again {later : Disk} (reached : disk.Reaches here)
    (h : disk.makeWay here path = .ok (place, after)) (kept : after.KeepsFolders later) :
    later.makeWay here path = .ok (place, later) := by
  obtain ⟨hnull, hlong, hfolders⟩ := makeFolders_of_makeWay h
  rw [makeWay, hnull, hlong]
  exact makeFolders_again (reaches_origin reached path) hfolders kept

/-- Whether a name can be the name of a file. -/
structure IsFileName (name : String) : Prop where
  notUp : name ≠ ".."
  short : isLongName name = false
  noNull : '\x00' ∉ name.toList

theorem hasNull_enter (hnull : folder.hasNull = false) (named : IsFileName name) :
    (folder.enter name).hasNull = false := by
  rw [Path.hasNull, Path.enter, List.any_append, ← Path.hasNull, hnull]
  simpa using named.noNull

/-- What is read at the end of a way whose folders are there. -/
theorem read_enter {later : Disk} (reached : disk.Reaches here)
    (way : disk.makeWay here folder = .ok (place, after)) (kept : after.KeepsFolders later)
    (named : IsFileName name) (short : (folder.enter name).isLong = false) :
    later.read here (folder.enter name) = .ok (later.bytes? (place ++ [name])) := by
  obtain ⟨hnull, _, hfolders⟩ := makeFolders_of_makeWay way
  have hreached := reaches_origin reached folder
  have hplace := kept _ (grows_of_makeFolders hreached hfolders).2.isFolder
  have hfollow : later.follow (origin here folder) (folder.names ++ [name]) =
      .ok (some (place ++ [name])) := by
    rw [follow_of_makeFolders hreached hfolders kept, follow, hplace, named.short,
      beq_false_of_ne named.notUp]
    rfl
  rw [read, hasNull_enter hnull named, short]
  exact congrArg (Except.map _) hfollow

theorem write_enter (bytes : List UInt8) : disk.write here (folder.enter name) bytes =
    match disk.makeWay here folder with
    | .error fault => .error fault
    | .ok (place, disk) =>
      if (folder.enter name).hasNull then .error .nullName
      else if (folder.enter name).isLong then .error .longName
      else disk.writeIn place name bytes := by
  have hlast : (folder.enter name).names.getLast? = some name := List.getLast?_concat
  have hfolder : { folder.enter name with names := (folder.enter name).names.dropLast } = folder :=
    congrArg (Path.mk folder.start) List.dropLast_concat
  rw [write, hlast]
  dsimp only
  rewrite [hfolder]
  rfl

/-- Writing makes the way and puts the file at its end. -/
theorem exists_put_of_write (h : disk.write here (folder.enter name) bytes = .ok after) :
    ∃ place middle, disk.makeWay here folder = .ok (place, middle) ∧
      middle.isFolder (place ++ [name]) = false ∧
      after = middle.put (place ++ [name]) (.file bytes) := by
  rw [write_enter] at h
  split at h
  · cases h
  · rename_i place middle way
    refine ⟨place, middle, way, ?_⟩
    split at h
    · cases h
    · split at h
      · cases h
      · unfold writeIn at h
        dsimp only at h
        split at h
        · cases h
        · rename_i hfree
          split at h
          · cases h
          · exact ⟨by simp_all, (Except.ok.inj h).symm⟩

/-- Where the way is there and no folder lies at its end, a file can be written. -/
theorem write_of_makeWay (way : disk.makeWay here folder = .ok (place, disk))
    (named : IsFileName name) (short : (folder.enter name).isLong = false) (bytes : List UInt8) :
    disk.write here (folder.enter name) bytes =
      if disk.isFolder (place ++ [name]) then .error .isFolder
      else .ok (disk.put (place ++ [name]) (.file bytes)) := by
  rw [write_enter, way]
  dsimp only
  rw [hasNull_enter (makeFolders_of_makeWay way).1 named, short, writeIn, named.short,
    beq_false_of_ne named.notUp]
  rfl

/-- A file that is written leaves all others as they are, and all folders. -/
theorem keeps_of_put (reached : disk.Reaches here) (free : disk.isFolder (here ++ [name]) = false)
    (bytes : List UInt8) :
    disk.KeepsFolders (disk.put (here ++ [name]) (.file bytes)) ∧
      ∀ p ≠ here ++ [name],
        (disk.put (here ++ [name]) (.file bytes)).bytes? p = disk.bytes? p := by
  refine ⟨fun p hp => ?_, fun p hp => ?_⟩
  · have hne : p ≠ here ++ [name] := fun heq => by simp [← heq, hp] at free
    rw [isFolder_iff, find?_put_concat reached hne]
    exact isFolder_iff.mp hp
  · unfold bytes?
    rw [find?_put_concat reached hp]

theorem keeps_of_write (reached : disk.Reaches here)
    (h : disk.write here (folder.enter name) bytes = .ok after) :
    disk.KeepsFolders after ∧ ∀ p, p.getLast? ≠ some name → after.bytes? p = disk.bytes? p := by
  obtain ⟨place, middle, way, hfree, rfl⟩ := exists_put_of_write h
  obtain ⟨hgrows, hplace⟩ := grows_of_makeWay reached way
  obtain ⟨hfolders, hfiles⟩ := keeps_of_put hplace hfree bytes
  refine ⟨hgrows.keepsFolders.trans hfolders, fun p hp => ?_⟩
  rw [hfiles p (fun heq => hp (heq ▸ List.getLast?_concat)), hgrows.bytes?]

end OpenApi.Disk
