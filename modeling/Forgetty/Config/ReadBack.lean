import Forgetty.Config.Schema

/-! Reading what was written. A TOML file may give the entries of a table in another order, so a
value is compared with what is read back with all tables sorted. A record is read back if each of
its fields is stored under its name, or left out. -/

namespace Forgetty.ConfigFile

open Forgetty.Core (Reads)

/-! ### Values with their tables sorted -/

theorem valuesOf_eq_map (vs : List Toml) : valuesOf vs = vs.map Toml.toValue := by
  induction vs with
  | nil => rfl
  | cons v vs ih => rw [valuesOf, ih, List.map_cons]

theorem entriesOf_eq_map (es : Entries) : entriesOf es = es.map fun e => (e.1, e.2.toValue) := by
  induction es with
  | nil => rfl
  | cons e es ih => rw [entriesOf, ih, List.map_cons]

theorem eq_of_toValue_string {w : Toml} {s : String} (h : w.toValue = (Toml.string s).toValue) :
    w = .string s := by
  cases w <;> simp_all [Toml.toValue]

theorem eq_of_toValue_integer {w : Toml} {n : Int64} (h : w.toValue = (Toml.integer n).toValue) :
    w = .integer n := by
  cases w <;> simp_all [Toml.toValue]

theorem eq_of_toValue_float {w : Toml} {x : Lib.BinaryFloat binary64}
    (h : w.toValue = (Toml.float x).toValue) : w = .float x := by
  cases w <;> simp_all [Toml.toValue]

theorem eq_of_toValue_boolean {w : Toml} {b : Bool} (h : w.toValue = (Toml.boolean b).toValue) :
    w = .boolean b := by
  cases w <;> simp_all [Toml.toValue]

theorem of_toValue_array {w : Toml} {vs : List Toml} (h : w.toValue = (Toml.array vs).toValue) :
    ∃ ws, w = .array ws ∧ ws.map Toml.toValue = vs.map Toml.toValue := by
  cases w with
  | array ws =>
    rw [Toml.toValue, Toml.toValue, Toml.array.injEq, valuesOf_eq_map, valuesOf_eq_map] at h
    exact ⟨ws, rfl, h⟩
  | _ => simp [Toml.toValue] at h

/-- The same entries in some order. -/
def SameEntries (fs es : Entries) : Prop := (entriesOf fs).Perm (entriesOf es)

theorem of_toValue_table {w : Toml} {es : Entries} (h : w.toValue = (Toml.table es).toValue) :
    ∃ fs, w = .table fs ∧ SameEntries fs es := by
  cases w with
  | table fs =>
    rw [Toml.toValue, Toml.toValue, Toml.table.injEq] at h
    have hsorted := List.mergeSort_perm (entriesOf fs) fun e e' => decide (e.1 ≤ e'.1)
    rw [h] at hsorted
    exact ⟨fs, rfl, hsorted.symm.trans (List.mergeSort_perm _ _)⟩
  | _ => simp [Toml.toValue] at h

mutual

/-- A sorted value stays as it is. -/
theorem toValue_toValue : ∀ v : Toml, v.toValue.toValue = v.toValue
  | .array elems => by
    rw [Toml.toValue, Toml.toValue, valuesOf_valuesOf]
  | .table entries => by
    rw [Toml.toValue, Toml.toValue, Toml.table.injEq, entriesOf_eq_map]
    have hself : ((entriesOf entries).mergeSort fun e e' => decide (e.1 ≤ e'.1)).map
        (fun e => (e.1, e.2.toValue)) =
        (entriesOf entries).mergeSort fun e e' => decide (e.1 ≤ e'.1) := by
      refine (List.map_congr_left fun e he => ?_).trans (List.map_id _)
      rw [toValue_of_mem_entriesOf entries e (List.mem_mergeSort.mp he)]
      rfl
    rw [hself]
    apply List.mergeSort_of_pairwise
    exact List.pairwise_mergeSort (fun a b c => by simpa using String.le_trans)
      (fun a b => by simpa using String.le_total a.1 b.1) _
  | .string _ => rfl
  | .integer _ => rfl
  | .float _ => rfl
  | .boolean _ => rfl
  | .datetime _ => rfl

theorem valuesOf_valuesOf : ∀ vs : List Toml, valuesOf (valuesOf vs) = valuesOf vs
  | [] => rfl
  | v :: vs => by rw [valuesOf, valuesOf, toValue_toValue v, valuesOf_valuesOf vs]

theorem toValue_of_mem_entriesOf : ∀ es : Entries, ∀ e ∈ entriesOf es, e.2.toValue = e.2
  | [], e, he => by cases he
  | (k, v) :: es, e, he => by
    rw [entriesOf] at he
    rcases List.mem_cons.mp he with rfl | he
    · exact toValue_toValue v
    · exact toValue_of_mem_entriesOf es e he

end

/-! ### Entries by their names -/

theorem lookup_eq_some_iff_mem {α β : Type} [DecidableEq α] {es : List (α × β)}
    (hn : (es.map (·.1)).Nodup) {k : α} {v : β} : es.lookup k = some v ↔ (k, v) ∈ es := by
  induction es with
  | nil => simp
  | cons e es ih =>
    rw [List.map_cons, List.nodup_cons] at hn
    obtain ⟨k', v'⟩ := e
    rw [List.lookup_cons, List.mem_cons, Prod.mk.injEq]
    by_cases hk : k = k'
    · subst hk
      have hnot : (k, v) ∉ es := fun h => hn.1 (List.mem_map_of_mem (f := (·.1)) h)
      simp [hnot, eq_comm]
    · rw [beq_eq_false_iff_ne.mpr hk, ih hn.2]
      simp [hk]

theorem lookup_entriesOf (es : Entries) (k : String) :
    (entriesOf es).lookup k = (es.lookup k).map Toml.toValue := by
  rw [entriesOf_eq_map]
  induction es with
  | nil => rfl
  | cons e es ih =>
    rw [List.map_cons, List.lookup_cons, List.lookup_cons, ih]
    cases k == e.1 <;> rfl

theorem keys_entriesOf (es : Entries) : (entriesOf es).map (·.1) = es.map (·.1) := by
  rw [entriesOf_eq_map, List.map_map]
  rfl

/-- A lookup does not depend on the order of the entries. -/
theorem SameEntries.lookup {fs es : Entries} (h : SameEntries fs es) (hn : (es.map (·.1)).Nodup)
    (k : String) : (fs.lookup k).map Toml.toValue = (es.lookup k).map Toml.toValue := by
  have hes : ((entriesOf es).map (·.1)).Nodup := by rwa [keys_entriesOf]
  have hfs : ((entriesOf fs).map (·.1)).Nodup := (h.map _).nodup_iff.mpr hes
  rw [← lookup_entriesOf, ← lookup_entriesOf]
  ext v
  rw [lookup_eq_some_iff_mem hfs, lookup_eq_some_iff_mem hes, h.mem_iff]

/-! ### What is read back -/

theorem ok_of_bind {α β : Type} {x : Reads α} {f : α → Reads β} {b : β} (h : x >>= f = .ok b) :
    ∃ a, x = .ok a ∧ f a = .ok b := by
  cases x with
  | error e => cases h
  | ok a => exact ⟨a, rfl, h⟩

/-- The value gives back what it stands for, however its tables are arranged. -/
def ReadsBack {α : Type} (read : Toml → Reads α) (v : Toml) (a : α) : Prop :=
  ∀ w : Toml, w.toValue = v.toValue → read w = .ok a

/-- The field is there with its value, or left out. -/
def Stores {α : Type} (read : Toml → Reads α) (o : Option α) (es : Entries) (name : String) : Prop :=
  match es.lookup name with
  | some v => ∃ a, o = some a ∧ ReadsBack read v a
  | none => o = none

/-- The field can be read if it is there, however its value is arranged. -/
def Stored (es : Entries) (p : String × (Toml → Reads Unit)) : Prop :=
  ∀ v, es.lookup p.1 = some v → ∀ w : Toml, w.toValue = v.toValue → p.2 w = .ok ()

theorem Stores.stored {α : Type} {read : Toml → Reads α} {o : Option α} {es : Entries}
    {name : String} (h : Stores read o es name) : Stored es (name, check read) := by
  intro v hv w hw
  rw [Stores, hv] at h
  obtain ⟨a, -, hread⟩ := h
  show check read w = _
  rw [check, hread w hw]
  rfl

section Record

variable {fs es : Entries} {α : Type} {read : Toml → Reads α} {name : String}

theorem field_eq_of_stores (h : SameEntries fs es) (hn : (es.map (·.1)).Nodup) {o : Option α}
    (hs : Stores read o es name) : field read name fs = .ok o := by
  have hlookup := h.lookup hn name
  rw [Stores] at hs
  cases hes : es.lookup name with
  | none =>
    rw [hes] at hs hlookup
    rw [field, Option.map_eq_none_iff.mp hlookup, hs]
  | some v =>
    rw [hes] at hs hlookup
    obtain ⟨a, rfl, hread⟩ := hs
    obtain ⟨w, hw, hwv⟩ := Option.map_eq_some_iff.mp hlookup
    simp only [field, hw, hread w hwv]
    rfl

theorem required_eq_of_stores (h : SameEntries fs es) (hn : (es.map (·.1)).Nodup) {a : α}
    (hs : Stores read (some a) es name) : required read name fs = .ok a := by
  rw [required, field_eq_of_stores h hn hs]
  rfl

theorem withDefault_eq_of_stores (h : SameEntries fs es) (hn : (es.map (·.1)).Nodup) {o : Option α}
    (hs : Stores read o es name) (d : α) : withDefault read name d fs = .ok (o.getD d) := by
  rw [withDefault, field_eq_of_stores h hn hs]
  rfl

theorem readEntries_of_forall {checks : Checks}
    (h : ∀ e ∈ fs, ∀ c, checks.lookup e.1 = some c → c e.2 = .ok ()) :
    readEntries checks fs = .ok () := by
  induction fs with
  | nil => rfl
  | cons e fs ih =>
    rw [List.forall_mem_cons] at h
    rw [readEntries]
    cases hc : checks.lookup e.1 with
    | none => exact ih h.2
    | some c =>
      simp only [h.1 c hc]
      exact ih h.2

/-- No entry stops the reading. -/
theorem readEntries_of_stored (h : SameEntries fs es) (hn : (es.map (·.1)).Nodup) {checks : Checks}
    (hs : ∀ p ∈ checks, Stored es p) : readEntries checks fs = .ok () := by
  apply readEntries_of_forall
  intro e he c hc
  have hmem : (e.1, c) ∈ checks := by
    obtain ⟨l₁, l₂, hsplit, -⟩ := List.lookup_eq_some_iff.mp hc
    simp [hsplit]
  have hentry : (e.1, e.2.toValue) ∈ entriesOf es := by
    apply h.mem_iff.mp
    rw [entriesOf_eq_map]
    exact List.mem_map_of_mem (f := fun e => (e.1, e.2.toValue)) he
  rw [entriesOf_eq_map, List.mem_map] at hentry
  obtain ⟨⟨k, v⟩, hv, heq⟩ := hentry
  obtain ⟨hk, hval⟩ := Prod.mk.inj heq
  have hlookup : es.lookup e.1 = some v := (lookup_eq_some_iff_mem hn).mpr (hk ▸ hv)
  exact hs (e.1, c) hmem v hlookup e.2 hval.symm

/-- A table with the fields of a record is read back as the record. -/
theorem readsBack_table {β : Type} {checks : Checks} {build : Entries → Reads β} {b : β}
    (hn : (es.map (·.1)).Nodup) (hs : ∀ p ∈ checks, Stored es p)
    (hb : ∀ fs, SameEntries fs es → build fs = .ok b) :
    ReadsBack (readRecord checks build) (.table es) b := by
  intro w hw
  obtain ⟨fs, rfl, hfs⟩ := of_toValue_table hw
  rw [readRecord, readEntries_of_stored hfs hn hs]
  exact hb fs hfs

end Record

/-! ### Single values -/

theorem readsBack_string (s : String) : ReadsBack readString (.string s) s := by
  intro w hw
  rw [eq_of_toValue_string hw]
  rfl

theorem readsBack_bool (b : Bool) : ReadsBack readBool (.boolean b) b := by
  intro w hw
  rw [eq_of_toValue_boolean hw]
  rfl

theorem readsBack_below {bound n : ℕ} (hn : n < bound) (hbound : n < 2 ^ 63) :
    ReadsBack (readBelow bound) (.integer (Int64.ofNat n)) n := by
  intro w hw
  have hint : (Int64.ofNat n).toInt = n := Int64.toInt_ofNat_of_lt hbound
  rw [eq_of_toValue_integer hw, readBelow, hint, if_pos (by omega), Int.toNat_natCast]

theorem readsBack_u8 (n : UInt8) : ReadsBack readU8 (u8Toml n) n := by
  intro w hw
  have hn : n.toNat < 2 ^ 8 := n.toNat_lt
  rw [readU8, readsBack_below hn (by omega) w hw]
  exact congrArg Except.ok UInt8.ofNat_toNat

theorem readsBack_u32 (n : UInt32) : ReadsBack readU32 (u32Toml n) n := by
  intro w hw
  have hn : n.toNat < 2 ^ 32 := n.toNat_lt
  rw [readU32, readsBack_below hn (by omega) w hw]
  exact congrArg Except.ok UInt32.ofNat_toNat

theorem readsBack_usize {n : UInt64} {v : Toml} (h : usizeToml n = some v) :
    ReadsBack readUsize v n := by
  rw [usizeToml] at h
  split_ifs at h with hn
  obtain rfl := Option.some.inj h
  intro w hw
  rw [readUsize, readsBack_below n.toNat_lt hn w hw]
  exact congrArg Except.ok UInt64.ofNat_toNat

theorem binary32_le : binary32.Le binary64 :=
  ⟨by decide, by decide, by decide⟩

theorem readsBack_f32 (x : Lib.BinaryFloat binary32) : ReadsBack readF32 (.float x.convert) x := by
  intro w hw
  rw [eq_of_toValue_float hw, readF32, Lib.BinaryFloat.convert_convert binary32_le]

theorem readsBack_variant {α : Type} {variants : List (String × α)} {name : String} {a : α}
    (h : variants.lookup name = some a) : ReadsBack (readEnum variants) (.string name) a := by
  intro w hw
  rw [eq_of_toValue_string hw]
  simp only [readEnum, readVariant, bind, Except.bind, h]

theorem readsBack_value (v : Toml) : ReadsBack readValue v v.toValue :=
  fun _ hw => congrArg Except.ok hw

theorem readAll_map {α β : Type} {read : Toml → Reads α} {write : β → Toml} {f : β → α} {bs : List β}
    {ws : List Toml} (hread : ∀ b ∈ bs, ReadsBack read (write b) (f b))
    (hws : ws.map Toml.toValue = (bs.map write).map Toml.toValue) :
    readAll read ws = .ok (bs.map f) := by
  induction bs generalizing ws with
  | nil =>
    rw [List.map_nil, List.map_nil, List.map_eq_nil_iff] at hws
    rw [hws]
    rfl
  | cons b bs ih =>
    rw [List.forall_mem_cons] at hread
    cases ws with
    | nil => simp at hws
    | cons w ws =>
      rw [List.map_cons, List.map_cons, List.map_cons, List.cons_eq_cons] at hws
      rw [readAll, hread.1 w hws.1, ih hread.2 hws.2]
      rfl

theorem readsBack_array {α : Type} {read : Toml → Reads α} {write : α → Toml} {as : List α}
    (hread : ∀ a ∈ as, ReadsBack read (write a) a) :
    ReadsBack (readArray read) (.array (as.map write)) as := by
  intro w hw
  obtain ⟨ws, rfl, hws⟩ := of_toValue_array hw
  rw [readArray, readAll_map hread hws]
  exact congrArg Except.ok (List.map_id as)

end Forgetty.ConfigFile
