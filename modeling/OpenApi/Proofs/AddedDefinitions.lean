import OpenApi.Proofs.Entries
import OpenApi.Proofs.InStep
import OpenApi.Schema.Scope

/-
A description to which definitions are added.

The new entries stand behind the old ones in one map, so whatever could be found before is found
again.  It is the same value unless it has that map in it: only the map itself and the maps around
it have grown (`walk_addAt`).  A reference to one of these is the only one that leads to something
else (`Encloses`).  The discriminator of a definition is the first one that is found, so it stays if
the new definitions have none.
-/
namespace OpenApi

namespace Entries

/-- A map with more entries in the map at a path below it.  Maps that are missing on the way are
created. -/
def addAt (more : Entries) : List String → Entries → Entries
  | [], entries => entries ++ more
  | key :: path, entries =>
    let inner := ((get? key entries).bind Node.entries?).getD []
    insert (.str key) (.map (addAt more path inner)) entries

/-- Whether all that stands on a path is a map. -/
def HasRoom : List String → Entries → Prop
  | [], _ => True
  | key :: path, entries =>
    ∀ child, get? key entries = some child → ∃ inner, child = .map inner ∧ HasRoom path inner

section
variable {more entries : Entries} {path : List String} {key : String}

theorem get?_addAt_of_ne {other : String} (h : other ≠ key) :
    get? other (addAt more (key :: path) entries) = get? other entries :=
  get?_insert_of_ne h _

theorem get?_addAt_self : get? key (addAt more (key :: path) entries) =
    some (.map (addAt more path (((get? key entries).bind Node.entries?).getD []))) :=
  get?_insert_self _

/-- The entries of the map at a path have grown, whether there was one or not. -/
theorem foldl_get_addAt (h : HasRoom path entries) :
    (path.foldl (fun node key => Node.get key node)
        (.map (addAt more path entries))).entries?.getD [] =
      (path.foldl (fun node key => Node.get key node) (.map entries)).entries?.getD [] ++
        more := by
  induction path generalizing entries with
  | nil => rfl
  | cons key path ih =>
    have hgrown : (Node.map (addAt more (key :: path) entries)).get key =
        .map (addAt more path (((get? key entries).bind Node.entries?).getD [])) := by
      rw [Node.get, Node.get?, get?_addAt_self]
      rfl
    rw [List.foldl_cons, List.foldl_cons, hgrown]
    cases hchild : get? key entries with
    | some child =>
      obtain ⟨inner, rfl, hinner⟩ := h child hchild
      rw [Node.get, Node.get?, hchild]
      exact ih hinner
    | none =>
      have hnull : (Node.map entries).get key = .null := by
        rw [Node.get, Node.get?, hchild]
        rfl
      have hempty : HasRoom path [] := by
        cases path with
        | nil => exact True.intro
        | cons _ _ =>
          intro child hchild
          cases hchild
      rw [hnull]
      refine (ih hempty).trans (congrArg (· ++ more) ?_)
      cases path with
      | nil => rfl
      | cons _ _ => rfl

end

end Entries

namespace Reference

open Entries

/-- Whether a reference stands for the definitions of a description, or for a map around them. -/
def Encloses (dialect : Dialect) (document : Node) (ref : String) : Prop :=
  ∃ segments target, segments? ref = some segments ∧ segments <+: dialect.schemasPath ∧
    walk document segments = .ok target

section
variable {more entries root : Entries} {path : List String} {dialect : Dialect}

theorem walk_map_cons {segment : String} {rest : List String} {target : Node} :
    walk (.map entries) (segment :: rest) = .ok target ↔
      ∃ next, get? segment entries = some next ∧ walk next rest = .ok target := by
  rw [walk, step]
  cases get? segment entries with
  | none =>
    constructor
    · intro h
      cases h
    · rintro ⟨_, h, _⟩
      cases h
  | some next =>
    constructor
    · exact fun h => ⟨next, rfl, h⟩
    · rintro ⟨found, hfound, h⟩
      cases hfound
      exact h

/-- What is found away from the path is found again. -/
theorem walk_addAt {segments : List String} {target : Node} (hroom : HasRoom path entries)
    (hapart : ¬ segments <+: path) (h : walk (.map entries) segments = .ok target) :
    walk (.map (addAt more path entries)) segments = .ok target := by
  induction path generalizing entries segments with
  | nil =>
    cases segments with
    | nil => exact absurd List.nil_prefix hapart
    | cons segment rest =>
      obtain ⟨next, hnext, hrest⟩ := walk_map_cons.mp h
      refine walk_map_cons.mpr ⟨next, ?_, hrest⟩
      rw [addAt, get?_append, hnext]
      rfl
  | cons key path ih =>
    cases segments with
    | nil => exact absurd List.nil_prefix hapart
    | cons segment rest =>
      obtain ⟨next, hnext, hrest⟩ := walk_map_cons.mp h
      by_cases hkey : segment = key
      · subst hkey
        obtain ⟨inner, rfl, hinner⟩ := hroom next hnext
        have hbelow : ¬ rest <+: path := fun hprefix =>
          hapart ((List.prefix_cons_inj segment).mpr hprefix)
        refine walk_map_cons.mpr ⟨_, get?_addAt_self, ?_⟩
        rw [hnext]
        exact ih hinner hbelow hrest
      · refine walk_map_cons.mpr ⟨next, ?_, hrest⟩
        rw [get?_addAt_of_ne hkey]
        exact hnext

theorem carries_resolve {ref : String} (hroom : HasRoom dialect.schemasPath root)
    (hapart : ¬ Encloses dialect (.map root) ref) :
    Carries (resolve (.map root) (.str ref))
      (resolve (.map (addAt more dialect.schemasPath root)) (.str ref)) := by
  intro target h
  unfold resolve at h ⊢
  dsimp only at h ⊢
  cases hsegments : segments? ref with
  | none =>
    rw [hsegments] at h
    cases h
  | some segments =>
    rw [hsegments] at h
    dsimp only at h ⊢
    cases hwalk : walk (.map root) segments with
    | error fault =>
      rw [hwalk] at h
      cases h
    | ok found =>
      rw [hwalk] at h
      have haway : ¬ segments <+: dialect.schemasPath := fun hprefix =>
        hapart ⟨segments, found, hsegments, hprefix, hwalk⟩
      rw [walk_addAt hroom haway hwalk]
      exact h

end

end Reference

/-- Whether one description has all that references lead to in another one, and the same
discriminators. -/
structure Grows (dialect : Dialect) (document grown : Node) : Prop where
  resolve : ∀ ref ∈ document.references,
    Carries (Reference.resolve document (.str ref)) (Reference.resolve grown (.str ref))
  discriminator : ∀ name,
    (Scope.mk grown dialect).discriminator? name = (Scope.mk document dialect).discriminator? name

section
variable {more root : Entries} {dialect : Dialect}

theorem schemas_addAt (hroom : Entries.HasRoom dialect.schemasPath root) :
    dialect.schemas (.map (Entries.addAt more dialect.schemasPath root)) =
      dialect.schemas (.map root) ++ more :=
  Entries.foldl_get_addAt hroom

/-- Adding definitions without discriminators leaves what there was, as long as no reference stands
for all definitions. -/
theorem grows_addAt (hroom : Entries.HasRoom dialect.schemasPath root)
    (hapart : ∀ ref ∈ (Node.map root).references, ¬ Reference.Encloses dialect (.map root) ref)
    (hplain : ∀ entry ∈ more, entry.2.get? "discriminator" = none) :
    Grows dialect (.map root) (.map (Entries.addAt more dialect.schemasPath root)) := by
  constructor
  · exact fun ref href => Reference.carries_resolve hroom (hapart ref href)
  · intro name
    have hnone (scope : Scope) :
        more.findSome? (fun entry => scope.discriminatorOf? name entry.2) = none := by
      refine List.findSome?_eq_none_iff.mpr fun entry hentry => ?_
      have hget : entry.2.get "discriminator" = .null := by
        rw [Node.get, hplain entry hentry]
        rfl
      unfold Scope.discriminatorOf?
      rw [hget]
    unfold Scope.discriminator?
    rw [schemas_addAt hroom, List.findSome?_append, hnone, Option.or_none]
    rfl

end

end OpenApi
