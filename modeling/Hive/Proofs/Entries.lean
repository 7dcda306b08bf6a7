import Hive.Scope
import Mathlib.Tactic.Common

/-!
What the operations on scopes do to their entries. An entry that is found is among the entries, and
a changed scope holds nothing but old entries and the one that was put in.
-/

namespace Hive

lemma ok_of_bind {ε α β : Type} {x : Except ε α} {k : α → Except ε β} {b : β}
    (h : x >>= k = .ok b) : ∃ a, x = .ok a ∧ k a = .ok b := by
  cases x with
  | ok a => exact ⟨a, rfl, h⟩
  | error f => cases h

lemma error_of_bind {ε α β : Type} {x : Except ε α} {k : α → Except ε β} {f : ε}
    (h : x >>= k = .error f) : x = .error f ∨ ∃ a, x = .ok a ∧ k a = .error f := by
  cases x with
  | ok a => exact .inr ⟨a, rfl, h⟩
  | error g => exact .inl (congrArg Except.error (Except.error.inj h))

lemma ofFault_eq_ok {α : Type} {x : Except Fault α} {a : α} (h : Failure.ofFault x = .ok a) :
    x = .ok a := by
  cases x with
  | ok b => exact congrArg Except.ok (Except.ok.inj h)
  | error f => cases h

namespace Table

variable {κ α : Type} [DecidableEq κ] {key : κ} {a : α} {table : List (κ × α)}

lemma mem_of_get? (h : get? key table = some a) : (key, a) ∈ table := by
  induction table with
  | nil => cases h
  | cons x rest ih =>
    obtain ⟨k, b⟩ := x
    unfold get? at h
    split at h
    · rename_i hk
      cases h
      simp [hk]
    · exact List.mem_cons_of_mem _ (ih h)

lemma mem_insert {x : κ × α} (h : x ∈ insert key a table) : x = (key, a) ∨ x ∈ table := by
  induction table with
  | nil => exact .inl (List.mem_singleton.1 h)
  | cons y rest ih =>
    obtain ⟨k, b⟩ := y
    unfold insert at h
    split at h
    · rcases List.mem_cons.1 h with rfl | h
      · exact .inl rfl
      · exact .inr (List.mem_cons_of_mem _ h)
    · rcases List.mem_cons.1 h with rfl | h
      · exact .inr List.mem_cons_self
      · exact (ih h).imp_right (List.mem_cons_of_mem _)

lemma insert_of_not_mem (h : key ∉ table.map Prod.fst) :
    insert key a table = table ++ [(key, a)] := by
  induction table with
  | nil => rfl
  | cons y rest ih =>
    obtain ⟨k, b⟩ := y
    rw [List.map_cons, List.mem_cons, not_or] at h
    rw [insert, if_neg (Ne.symm h.1), ih h.2, List.cons_append]

lemma mem_of_mem_erase {x : κ × α} (h : x ∈ erase key table) : x ∈ table := by
  induction table with
  | nil => cases h
  | cons y rest ih =>
    obtain ⟨k, b⟩ := y
    unfold erase at h
    split at h
    · exact List.mem_cons_of_mem _ h
    · rcases List.mem_cons.1 h with rfl | h
      · exact List.mem_cons_self
      · exact List.mem_cons_of_mem _ (ih h)

end Table

namespace Scope

variable {s t : Scope} {name : Json} {e : Entry} {P : Json × Entry → Prop}

lemma find?_of_key {k : Json} (hk : name.key = .ok k) :
    s.find? name = .ok (Table.get? k s.entries) := by
  unfold find?
  rw [hk]
  rfl

lemma find?_eq_error {f : Fault} : s.find? name = .error f ↔ name.key = .error f := by
  unfold find?
  cases name.key with
  | ok k => exact ⟨nofun, nofun⟩
  | error g => exact ⟨fun h => congrArg Except.error (Except.error.inj h),
      fun h => congrArg Except.error (Except.error.inj h)⟩

lemma get?_of_find? (h : s.find? name = .ok (some e)) :
    ∃ k, name.key = .ok k ∧ Table.get? k s.entries = some e := by
  cases hk : name.key with
  | ok k =>
    rw [find?_of_key hk] at h
    exact ⟨k, rfl, Except.ok.inj h⟩
  | error f =>
    rw [find?_eq_error.2 hk] at h
    cases h

lemma mem_of_find? (h : s.find? name = .ok (some e)) :
    ∃ k, name.key = .ok k ∧ (k, e) ∈ s.entries := by
  obtain ⟨k, hk, hget⟩ := get?_of_find? h
  exact ⟨k, hk, Table.mem_of_get? hget⟩

lemma putAt_of_key {k : Json} (hk : name.key = .ok k) :
    s.putAt name e = .ok ⟨Table.insert k e s.entries⟩ := by
  unfold putAt
  rw [hk]
  rfl

lemma putAt_eq_error {f : Fault} : s.putAt name e = .error f ↔ name.key = .error f := by
  unfold putAt
  cases name.key with
  | ok k => exact ⟨nofun, nofun⟩
  | error g => exact ⟨fun h => congrArg Except.error (Except.error.inj h),
      fun h => congrArg Except.error (Except.error.inj h)⟩

lemma put_of_key {k : Json} (hk : e.name.lexeme.key = .ok k) :
    s.put e = .ok ⟨Table.insert k e s.entries⟩ := putAt_of_key hk

lemma put_eq_error {f : Fault} : s.put e = .error f ↔ e.name.lexeme.key = .error f :=
  putAt_eq_error

/-- What holds of the entries and of a new one under its key holds after the new one is put in. -/
lemma forall_putAt (h : s.putAt name e = .ok t) (hs : ∀ x ∈ s.entries, P x)
    (he : ∀ k, name.key = .ok k → P (k, e)) : ∀ x ∈ t.entries, P x := by
  intro x hx
  cases hk : name.key with
  | ok k =>
    rw [putAt_of_key hk] at h
    obtain rfl := Except.ok.inj h
    rcases Table.mem_insert hx with rfl | hx
    · exact he k hk
    · exact hs x hx
  | error f =>
    rw [putAt_eq_error.2 hk] at h
    cases h

lemma forall_put (h : s.put e = .ok t) (hs : ∀ x ∈ s.entries, P x)
    (he : ∀ k, e.name.lexeme.key = .ok k → P (k, e)) : ∀ x ∈ t.entries, P x :=
  forall_putAt h hs he

lemma forall_erase (h : s.erase name = .ok t) (hs : ∀ x ∈ s.entries, P x) :
    ∀ x ∈ t.entries, P x := by
  intro x hx
  unfold erase at h
  split at h
  · obtain rfl := Except.ok.inj h
    exact hs x hx
  · cases hk : name.key with
    | ok k =>
      rw [hk] at h
      obtain rfl := Except.ok.inj h
      exact hs x (Table.mem_of_mem_erase hx)
    | error f =>
      rw [hk] at h
      cases h

/-- A variable that is given a value is put back with it, under the name it was found by. -/
lemma exists_of_assign {x : Token} {v : Value} {l : Literal} (h : s.assign x v = .ok (l, t)) :
    ∃ k w, x.lexeme.key = .ok k ∧ Table.get? k s.entries = some (.var w) ∧
      w.type.fit v = .ok l ∧ t = ⟨Table.insert k (.var { w with value := some l }) s.entries⟩ := by
  obtain ⟨found, hfound, h⟩ := ok_of_bind h
  split at h
  · rename_i w
    obtain ⟨m, hm, h⟩ := ok_of_bind h
    obtain ⟨u, hu, h⟩ := ok_of_bind h
    cases h
    -- the entry is put under the key of the name that it was found with, not under its own
    obtain ⟨k, hk, hget⟩ := get?_of_find? (ofFault_eq_ok hfound)
    have hput := ofFault_eq_ok hu
    rw [putAt_of_key hk] at hput
    refine ⟨k, w, hk, hget, ?_, (Except.ok.inj hput).symm⟩
    unfold fitVariable at hm
    split at hm
    · rename_i hfit
      cases hm
      exact hfit
    · cases hm
    · cases hm
  · cases h

lemma key_of_erase {f : Fault} (h : s.erase name = .error f) : name.key = .error f := by
  unfold erase at h
  split at h
  · cases h
  · cases hk : name.key with
    | ok k =>
      rw [hk] at h
      cases h
    | error g =>
      rw [hk] at h
      exact congrArg Except.error (Except.error.inj h)

end Scope

end Hive
