import Mathlib.Data.List.Nodup

/-!
# Linked chains

A list of entries, each of which has a key and names the key of its predecessor, is linked if the
predecessor of every entry is the entry before it. The predecessor of the first entry is given, and
`tip` is the key under which the next entry has to be linked. In a linked chain with distinct keys
no two entries have the same predecessor (`Linked.eq_of_previous_eq`): the chain has no branch, and
its entries can be linked in one order only (`Linked.eq_of_perm`).
-/

set_option autoImplicit false

namespace Halquen.Library.LinkedChain

variable {ρ κ : Type} (key : ρ → κ) (previous : ρ → Option κ)

/-- Each entry names the one before it, and the first one names `start`. -/
def Linked (start : Option κ) : List ρ → Prop
  | [] => True
  | r :: rs => previous r = start ∧ Linked (some (key r)) rs

/-- Key of the last entry, or `start` where there is none. -/
def tip (start : Option κ) : List ρ → Option κ
  | [] => start
  | r :: rs => tip (some (key r)) rs

variable {key previous}

/-- The last link is the tip. -/
theorem tip_append (start : Option κ) (rs : List ρ) (r : ρ) :
    tip key start (rs ++ [r]) = some (key r) := by
  induction rs generalizing start with
  | nil => rfl
  | cons s rs ih => exact ih (some (key s))

/-- A chain is extended by naming its tip. -/
theorem linked_append (start : Option κ) (rs : List ρ) (r : ρ) :
    Linked key previous start (rs ++ [r]) ↔
      Linked key previous start rs ∧ previous r = tip key start rs := by
  induction rs generalizing start with
  | nil => simp [Linked, tip]
  | cons s rs ih => simp [Linked, tip, ih, and_assoc]

/-- The predecessors of a linked chain are the start and all keys but the last. -/
theorem Linked.map_previous {start : Option κ} {rs : List ρ} (h : Linked key previous start rs) :
    rs.map previous = (start :: rs.map fun r => some (key r)).take rs.length := by
  induction rs generalizing start with
  | nil => rfl
  | cons r rs ih =>
      obtain ⟨hr, hrs⟩ := h
      simp only [List.map_cons, List.length_cons, List.take_succ_cons]
      rw [hr, ih hrs]

/-- The predecessor of an entry is the start or another entry. -/
theorem Linked.previous_mem {start : Option κ} {rs : List ρ} (h : Linked key previous start rs)
    {r : ρ} (hr : r ∈ rs) : previous r = start ∨ ∃ p ∈ rs, previous r = some (key p) := by
  have hmem : previous r ∈ (start :: rs.map fun r => some (key r)).take rs.length := by
    rw [← h.map_previous]
    exact List.mem_map_of_mem hr
  rcases List.mem_cons.mp (List.mem_of_mem_take hmem) with hstart | hentry
  · exact .inl hstart
  · obtain ⟨p, hp, hkey⟩ := List.mem_map.mp hentry
    exact .inr ⟨p, hp, hkey.symm⟩

/-- The tip of a chain that is not empty is one of its entries. -/
theorem tip_mem (start : Option κ) {rs : List ρ} (h : rs ≠ []) :
    ∃ r ∈ rs, tip key start rs = some (key r) := by
  induction rs generalizing start with
  | nil => exact absurd rfl h
  | cons r rs ih =>
      cases rs with
      | nil => exact ⟨r, List.mem_singleton_self r, rfl⟩
      | cons s rs =>
          obtain ⟨r', hr', htip⟩ := ih (some (key r)) (List.cons_ne_nil s rs)
          exact ⟨r', List.mem_cons_of_mem r hr', htip⟩

/-- No two entries of a chain that starts without a predecessor share one. -/
theorem Linked.eq_of_previous_eq {rs : List ρ} (h : Linked key previous none rs)
    (hkeys : (rs.map key).Nodup) {a b : ρ} (ha : a ∈ rs) (hb : b ∈ rs)
    (hab : previous a = previous b) : a = b := by
  have hsome : (rs.map fun r => some (key r)).Nodup := by
    rw [← Function.comp_def, ← List.map_map]
    exact hkeys.map fun _ _ h => Option.some.inj h
  have hall : (none :: rs.map fun r => some (key r)).Nodup :=
    List.nodup_cons.mpr ⟨by simp, hsome⟩
  have hprevious : (rs.map previous).Nodup := by
    rw [h.map_previous]
    exact hall.sublist (List.take_sublist _ _)
  exact List.inj_on_of_nodup_map hprevious ha hb hab

/-- The links of a chain determine its order. -/
theorem Linked.eq_of_perm {start : Option κ} {rs rs' : List ρ} (h : Linked key previous start rs)
    (h' : Linked key previous start rs') (hkeys : (rs.map key).Nodup)
    (hstart : ∀ r ∈ rs, some (key r) ≠ start) (hperm : rs.Perm rs') : rs = rs' := by
  induction rs generalizing start rs' with
  | nil => exact hperm.nil_eq
  | cons r rs ih =>
      cases rs' with
      | nil => exact absurd hperm.length_eq (Nat.succ_ne_zero _)
      | cons r' rs' =>
          rw [List.map_cons, List.nodup_cons] at hkeys
          -- Both first entries have the predecessor `start`, which no later entry has.
          have hsame : r' = r := by
            rcases List.mem_cons.mp (hperm.mem_iff.mpr List.mem_cons_self) with heq | hmem
            · exact heq
            · exfalso
              rcases h.2.previous_mem hmem with hprevious | ⟨p, hp, hprevious⟩
              · exact hstart r List.mem_cons_self (hprevious.symm.trans h'.1)
              · exact hstart p (List.mem_cons_of_mem r hp) (hprevious.symm.trans h'.1)
          subst hsame
          have hrest : ∀ s ∈ rs, some (key s) ≠ some (key r') := by
            intro s hs heq
            apply hkeys.1
            rw [← Option.some.inj heq]
            exact List.mem_map_of_mem hs
          rw [ih h.2 h'.2 hkeys.2 hrest (List.perm_cons r' |>.mp hperm)]

/-! ## The chain read backwards -/

theorem tip_reverse (rs : List ρ) : tip key none rs.reverse = rs.head?.map key := by
  cases rs with
  | nil => rfl
  | cons r rs => rw [List.reverse_cons, tip_append]; rfl

/-- Read backwards, each entry of a chain names the one after it. -/
theorem linked_reverse_iff (rs : List ρ) :
    Linked key previous none rs.reverse ↔
      ∀ (i : Nat) (r : ρ), rs[i]? = some r → previous r = rs[i + 1]?.map key := by
  induction rs with
  | nil => simp [Linked]
  | cons r rs ih =>
      rw [List.reverse_cons, linked_append, tip_reverse, ih]
      constructor
      · rintro ⟨hrest, hfirst⟩ i s hs
        cases i with
        | zero =>
            obtain rfl := Option.some.inj hs
            rw [hfirst, List.head?_eq_getElem?]
            rfl
        | succ i => exact hrest i s hs
      · intro h
        refine ⟨fun i s hs => h (i + 1) s hs, ?_⟩
        rw [h 0 r rfl, List.head?_eq_getElem?]
        rfl

end Halquen.Library.LinkedChain
