import BeastWebsocketEcho.Callbacks

/-!
# Handles that can only be moved

A handle is an object known by its place, which is empty once the object was destroyed. A live
handle holds a resource or, once it was moved from, nothing. Moves and swaps leave the resources
that are held as they are, in another order; what a destroyed handle held is held no more.
-/

namespace BeastWebsocketEcho

abbrev Handles (K : Type*) := List (Option (Option K))

namespace Handles

variable {K : Type*} {hs hs' : Handles K} {i j : ℕ} {r : Option K} {k : K}

/-- What the live handle at a place holds. -/
def holds (hs : Handles K) (i : ℕ) : Option (Option K) := (hs[i]?).join

/-- The resource that the handle at a place holds, if it is a live one and holds one. -/
def resource (hs : Handles K) (i : ℕ) : Option K := (hs.holds i).join

def held (hs : Handles K) : List K := hs.filterMap Option.join

def create (hs : Handles K) (r : Option K) : Handles K := hs ++ [some r]

/-- A new handle takes over what another one holds. -/
def moveConstruct (hs : Handles K) (other : ℕ) : Option (Handles K) :=
  (hs.holds other).map fun r => Handles.create (hs.set other (some none)) r

def swap (hs : Handles K) (i j : ℕ) : Option (Handles K) :=
  (hs.holds i).bind fun r => (hs.holds j).map fun q => (hs.set i (some q)).set j (some r)

def destroy (hs : Handles K) (i : ℕ) : Option (Option K × Handles K) :=
  (hs.holds i).map fun r => (r,hs.set i none)

theorem holds_eq (h : hs.holds i = some r) : hs[i]? = some (some r) := by
  simpa [holds,Option.join_eq_some_iff] using h

theorem holds_lt (h : hs.holds i = some r) : i < hs.length := (List.getElem?_eq_some_iff.mp (holds_eq h)).1

theorem resource_eq (h : hs.resource i = some k) : hs.holds i = some (some k) := by
  simpa [resource,Option.join_eq_some_iff] using h

@[simp] theorem held_create (hs : Handles K) (r : Option K) : (hs.create r).held = hs.held ++ r.toList := by
  cases r <;> simp [held,create,List.filterMap_append]

theorem mem_held : k ∈ hs.held ↔ ∃ i, hs.resource i = some k := by
  constructor
  · intro hk
    obtain ⟨h,hh,hjoin⟩ := List.mem_filterMap.mp hk
    obtain ⟨i,hi,hget⟩ := List.getElem_of_mem hh
    refine ⟨i,?_⟩
    simp only [resource,holds,List.getElem?_eq_getElem hi,hget]
    simpa using hjoin
  · rintro ⟨i,hi⟩
    exact List.mem_filterMap.mpr ⟨_,List.mem_of_getElem? (holds_eq (resource_eq hi)),rfl⟩

/-- Where no resource is held twice, a resource has one handle. -/
theorem unique_of_nodup (h : hs.held.Nodup) (hi : hs.resource i = some k) (hj : hs.resource j = some k) : i = j :=
  place_unique Option.join h (holds_eq (resource_eq hi)) (holds_eq (resource_eq hj)) rfl rfl

theorem held_set (h : hs.holds i = some r) : ∃ rest, hs.held.Perm (r.toList ++ rest) ∧
    ∀ q, (Handles.held (hs.set i q)).Perm (q.join.toList ++ rest) :=
  ⟨(hs.eraseIdx i).filterMap Option.join,filterMap_perm Option.join (holds_eq h),
    filterMap_set_perm Option.join (holds_eq h)⟩

theorem holds_set_self (h : hs.holds i = some r) (q : Option (Option K)) : Handles.holds (hs.set i q) i = q := by
  simp [holds,holds_lt h]

theorem holds_set_of_ne (h : i ≠ j) (q : Option (Option K)) : Handles.holds (hs.set i q) j = hs.holds j := by
  simp [holds,List.getElem?_set_ne h]

theorem holds_create_of_lt (h : i < hs.length) (r : Option K) : (hs.create r).holds i = hs.holds i := by
  simp [holds,create,List.getElem?_append_left h]

theorem held_moveConstruct (h : hs.moveConstruct i = some hs') : hs'.held.Perm hs.held := by
  obtain ⟨r,hr,rfl⟩ := Option.map_eq_some_iff.mp h
  obtain ⟨rest,hbefore,hafter⟩ := held_set hr
  rw [held_create]
  have hmoved : (Handles.held (hs.set i (some none))).Perm rest := hafter (some none)
  exact ((hmoved.append_right _).trans List.perm_append_comm).trans hbefore.symm

theorem held_swap (h : hs.swap i j = some hs') : hs'.held.Perm hs.held := by
  obtain ⟨r,hr,hrest⟩ := Option.bind_eq_some_iff.mp h
  obtain ⟨q,hq,rfl⟩ := Option.map_eq_some_iff.mp hrest
  exact filterMap_swap_perm Option.join (holds_eq hr) (holds_eq hq)

theorem held_destroy (h : hs.destroy i = some (r,hs')) : hs.held.Perm (hs'.held ++ r.toList) := by
  obtain ⟨r',hr,heq⟩ := Option.map_eq_some_iff.mp h
  obtain ⟨rfl,rfl⟩ := Prod.mk.inj heq
  obtain ⟨rest,hbefore,hafter⟩ := held_set hr
  have hgone : (Handles.held (hs.set i none)).Perm rest := hafter none
  exact hbefore.trans (List.perm_append_comm.trans (hgone.symm.append_right _))

/-- The temporary of an assignment that moves, swaps and destroys: what it holds in the end is what the target held
before, unless that was the source. -/
theorem destroy_swapped {t u : Handles K} (hi : hs.holds i = some r) (ht : hs.moveConstruct j = some t)
    (hu : t.swap i hs.length = some u) :
    u.holds hs.length = some (if i = j then none else r) := by
  obtain ⟨q,hq,rfl⟩ := Option.map_eq_some_iff.mp ht
  obtain ⟨a,ha,hrest⟩ := Option.bind_eq_some_iff.mp hu
  obtain ⟨b,hb,rfl⟩ := Option.map_eq_some_iff.mp hrest
  have hne : i ≠ hs.length := (holds_lt hi).ne
  have hlast : Handles.holds ((Handles.create (hs.set j (some none)) q).set i (some b)) hs.length = some b := by
    rw [holds_set_of_ne hne]
    exact hb
  rw [holds_set_self hlast]
  have hlt : i < (hs.set j (some none)).length := by simpa using holds_lt hi
  rw [holds_create_of_lt hlt] at ha
  by_cases hij : i = j
  · subst hij
    rw [holds_set_self hq] at ha
    simpa using ha.symm
  · rw [holds_set_of_ne (Ne.symm hij),hi] at ha
    simpa [hij] using ha.symm

end Handles
end BeastWebsocketEcho
