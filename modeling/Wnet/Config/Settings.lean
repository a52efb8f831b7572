import Wnet.Config.Rows

/-!
# What the rows of a file set

Of the rows that set one key of one section the first counts. `settingIn` reads that
off the rows; `Load` accepts a file exactly if nothing in it is malformed and no key
comes before the first section, and then finds what `settingIn` says.
-/

namespace Wnet.Config

open Foundation

variable {name key value : Bytes} {current : Option Bytes} {kinds : List RowKind}

/-- The section that is open after the rows. -/
def sectionAfter (current : Option Bytes) : List RowKind → Option Bytes
  | [] => current
  | .header name :: rest => sectionAfter (some name) rest
  | _ :: rest => sectionAfter current rest

/-- The value that the rows give a key of a section. -/
def settingIn (name key : Bytes) (current : Option Bytes) : List RowKind → Option Bytes
  | [] => none
  | .header other :: rest => settingIn name key (some other) rest
  | .setting other value :: rest =>
      if current = some name ∧ other = key then some value else settingIn name key current rest
  | _ :: rest => settingIn name key current rest

theorem settingIn_append (first second : List RowKind) :
    settingIn name key current (first ++ second) =
      (settingIn name key current first).or
        (settingIn name key (sectionAfter current first) second) := by
  induction first generalizing current with
  | nil => rfl
  | cons kind rest ih =>
      cases kind with
      | setting other value =>
          simp only [List.cons_append, settingIn, sectionAfter]
          split_ifs
          · rfl
          · exact ih
      | _ => exact ih

/-- Rows that do not set the key do not matter. -/
theorem settingIn_eq_none (hnot : ∀ value, RowKind.setting key value ∉ kinds) :
    settingIn name key current kinds = none := by
  induction kinds generalizing current with
  | nil => rfl
  | cons kind rest ih =>
      have hrest : ∀ value, RowKind.setting key value ∉ rest := fun value hmem =>
        hnot value (List.mem_cons_of_mem _ hmem)
      cases kind with
      | setting other value =>
          rw [settingIn, if_neg, ih hrest]
          rintro ⟨-, rfl⟩
          exact hnot value List.mem_cons_self
      | _ => exact ih hrest

theorem settingIn_mem {value : Bytes} (hsetting : settingIn name key current kinds = some value) :
    RowKind.setting key value ∈ kinds := by
  induction kinds generalizing current with
  | nil => simp [settingIn] at hsetting
  | cons kind rest ih =>
      cases kind with
      | setting other old =>
          rw [settingIn] at hsetting
          split_ifs at hsetting with hhere
          · obtain rfl := Option.some.inj hsetting
            rw [hhere.2]
            exact List.mem_cons_self
          · exact List.mem_cons_of_mem _ (ih hsetting)
      | _ => exact List.mem_cons_of_mem _ (ih hsetting)

/-- The rows in which `Load` finds no fault. -/
def Accepted (current : Option Bytes) : List RowKind → Prop
  | [] => True
  | .header name :: rest => Accepted (some name) rest
  | .setting _ _ :: rest => current ≠ none ∧ Accepted current rest
  | .ignored :: rest => Accepted current rest
  | .malformed :: _ => False
  | .aborts :: _ => False

theorem accepted_append (first second : List RowKind) :
    Accepted current (first ++ second) ↔
      Accepted current first ∧ Accepted (sectionAfter current first) second := by
  induction first generalizing current with
  | nil => simp [Accepted, sectionAfter]
  | cons kind rest ih =>
      cases kind with
      | setting other value =>
          simp only [List.cons_append, Accepted, sectionAfter, ih, and_assoc]
      | malformed => simp [Accepted]
      | aborts => simp [Accepted]
      | _ => exact ih

/-- An open section does no harm. -/
theorem Accepted.opened (hkinds : Accepted current kinds) (name : Bytes) :
    Accepted (some name) kinds := by
  induction kinds generalizing current with
  | nil => trivial
  | cons kind rest ih =>
      cases kind with
      | header other => exact hkinds
      | setting other value => exact ⟨by simp, ih hkinds.2⟩
      | ignored => exact ih hkinds
      | malformed => exact hkinds
      | aborts => exact hkinds

theorem sectionAfter_some (name : Bytes) (kinds : List RowKind) :
    ∃ after, sectionAfter (some name) kinds = some after := by
  induction kinds generalizing name with
  | nil => exact ⟨name, rfl⟩
  | cons kind rest ih =>
      cases kind with
      | header other => exact ih other
      | _ => exact ih name

/-! ## The loaded map -/

/-- The value in a map of maps. -/
def valueIn (map : ConfigMap) (name key : Bytes) : Option Bytes :=
  (map.find? name).bind fun inner => inner.find? key

theorem valueIn_insert_empty (map : ConfigMap) (opened : Bytes) :
    valueIn (map.insert opened .empty) name key = valueIn map name key := by
  unfold valueIn SortedMap.insert
  by_cases hname : name = opened
  · subst hname
    rw [SortedMap.find?_alter_self]
    cases map.find? name <;> rfl
  · rw [SortedMap.find?_alter_of_ne _ _ hname]

theorem valueIn_insertSetting (state : LoadState) (opened other : Bytes) :
    valueIn (state.insertSetting opened other value).configMap name key =
      if name = opened ∧ key = other then (valueIn state.configMap name key).or (some value)
      else valueIn state.configMap name key := by
  unfold valueIn LoadState.insertSetting SortedMap.insert
  by_cases hname : name = opened
  · subst hname
    simp only [true_and, SortedMap.find?_alter_self, Option.bind_some]
    by_cases hkey : key = other
    · subst hkey
      rw [if_pos rfl, SortedMap.find?_alter_self]
      cases hfind : state.configMap.find? name with
      | none => simp
      | some inner => cases hinner : inner.find? key <;> simp [hinner]
    · rw [if_neg hkey, SortedMap.find?_alter_of_ne _ _ hkey]
      cases state.configMap.find? name <;> simp
  · rw [if_neg fun h => hname h.1]
    simp only
    rw [SortedMap.find?_alter_of_ne _ _ hname]

/-- What `Load` makes of rows that it accepts. -/
theorem loadKinds_of_accepted {state : LoadState} (haccepted : Accepted state.pMap kinds) :
    ∃ map, loadKinds state kinds = some (.success, map) ∧ ∀ name key,
      valueIn map name key = (valueIn state.configMap name key).or
        (settingIn name key state.pMap kinds) := by
  induction kinds generalizing state with
  | nil => exact ⟨state.configMap, rfl, fun name key => by simp [settingIn]⟩
  | cons kind rest ih =>
      cases kind with
      | header opened =>
          rw [loadKinds, enterSection_eq]
          obtain ⟨map, hload, hvalue⟩ :=
            @ih ⟨state.configMap.insert opened .empty, some opened⟩ haccepted
          refine ⟨map, hload, fun name key => ?_⟩
          rw [hvalue, valueIn_insert_empty]
          rfl
      | setting other value =>
          obtain ⟨hopened, hrest⟩ := haccepted
          obtain ⟨opened, hcurrent⟩ := Option.ne_none_iff_exists'.mp hopened
          rw [loadKinds, hcurrent]
          obtain ⟨map, hload, hvalue⟩ := @ih (state.insertSetting opened other value) hrest
          refine ⟨map, hload, fun name key => ?_⟩
          rw [hvalue, valueIn_insertSetting, settingIn]
          have hpMap : (state.insertSetting opened other value).pMap = state.pMap := rfl
          rw [hpMap, hcurrent]
          by_cases hhere : name = opened ∧ key = other
          · obtain ⟨rfl, rfl⟩ := hhere
            cases valueIn state.configMap name key <;> simp
          · rw [if_neg hhere, if_neg]
            rintro ⟨hname, rfl⟩
            exact hhere ⟨(Option.some.inj hname).symm, rfl⟩
      | ignored => exact ih haccepted
      | malformed => exact haccepted.elim
      | aborts => exact haccepted.elim

theorem accepted_of_loadKinds {state : LoadState} {map : ConfigMap}
    (hload : loadKinds state kinds = some (.success, map)) : Accepted state.pMap kinds := by
  induction kinds generalizing state with
  | nil => trivial
  | cons kind rest ih =>
      cases kind with
      | header opened =>
          rw [loadKinds, enterSection_eq] at hload
          exact ih hload
      | setting other value =>
          rw [loadKinds] at hload
          cases hcurrent : state.pMap with
          | none => simp [hcurrent] at hload
          | some opened =>
              simp only [hcurrent] at hload
              have hrest := ih hload
              exact ⟨by simp, hcurrent ▸ hrest⟩
      | ignored => exact ih hload
      | malformed => simp [loadKinds] at hload
      | aborts => simp [loadKinds] at hload

end Wnet.Config
