import Mathlib.Data.List.Nodup
import BlockBuilder.Toml.Document

/-!
# Keys

A document that gives two values to a key is refused, so in what has been read every table, at any depth,
has one value under a key (`unambiguous_parse?`), whatever the order of its entries
(`Entries.Unambiguous.lookup_eq_some_iff`). Every change that a line makes keeps that (`Entries.Safe`), and
every reader of values gives only such values (`ValueReader.Unambiguous`).
-/
namespace BlockBuilder.Toml

inductive Value.Unambiguous : Value → Prop where
  | text (content : String) : Unambiguous (.text content)
  | integer (number : Int) : Unambiguous (.integer number)
  | boolean (value : Bool) : Unambiguous (.boolean value)
  | float : Unambiguous .float
  | datetime : Unambiguous .datetime
  | array {items : List Value} (inner : ∀ item ∈ items, Unambiguous item) : Unambiguous (.array items)
  | table {origin : Origin} {entries : Entries} (distinct : (entries.map Prod.fst).Nodup)
      (inner : ∀ entry ∈ entries, Unambiguous entry.2) : Unambiguous (.table origin entries)
  | tables {elements : List Entries} (distinct : ∀ entries ∈ elements, (entries.map Prod.fst).Nodup)
      (inner : ∀ entries ∈ elements, ∀ entry ∈ entries, Unambiguous entry.2) :
      Unambiguous (.tables elements)

namespace Entries

structure Unambiguous (entries : Entries) : Prop where
  distinct : (entries.map Prod.fst).Nodup
  inner : ∀ entry ∈ entries, entry.2.Unambiguous

variable {entries after : Entries} {elements : List Entries} {origin : Origin} {key : String} {value : Value}
  {path : List String}

theorem unambiguous_table_iff : (Value.table origin entries).Unambiguous ↔ entries.Unambiguous := by
  constructor
  · rintro (_ | _ | _ | _ | _ | _ | ⟨distinct, inner⟩ | _)
    exact ⟨distinct, inner⟩
  · exact fun ⟨distinct, inner⟩ => .table distinct inner

theorem unambiguous_tables_iff :
    (Value.tables elements).Unambiguous ↔ ∀ entries ∈ elements, entries.Unambiguous := by
  constructor
  · rintro (_ | _ | _ | _ | _ | _ | _ | ⟨distinct, inner⟩) entries mem
    exact ⟨distinct entries mem, inner entries mem⟩
  · exact fun each => .tables (fun entries mem => (each entries mem).distinct)
      fun entries mem => (each entries mem).inner

theorem unambiguous_nil : Unambiguous [] :=
  ⟨.nil, nofun⟩

/-! ## Tables -/

theorem Unambiguous.lookup_eq_some_iff (unambiguous : entries.Unambiguous) :
    entries.lookup key = some value ↔ (key, value) ∈ entries := by
  rw [List.lookup_eq_some_iff]
  constructor
  · rintro ⟨before, behind, rfl, -⟩
    simp
  · intro mem
    obtain ⟨before, behind, rfl⟩ := List.append_of_mem mem
    refine ⟨before, behind, rfl, fun entry earlier => ?_⟩
    have distinct := unambiguous.distinct
    rw [List.map_append, List.nodup_append] at distinct
    exact bne_iff_ne.mpr fun same => distinct.2.2 _ (List.mem_map_of_mem earlier) key (by simp) same.symm

theorem Unambiguous.lookup (unambiguous : entries.Unambiguous) (found : entries.lookup key = some value) :
    value.Unambiguous :=
  unambiguous.inner _ (unambiguous.lookup_eq_some_iff.mp found)

theorem Unambiguous.append (unambiguous : entries.Unambiguous) (absent : entries.lookup key = none)
    (new : value.Unambiguous) : Unambiguous (entries ++ [(key, value)]) := by
  constructor
  · rw [List.map_append]
    refine unambiguous.distinct.append (List.nodup_singleton key) (List.disjoint_singleton.mpr fun taken => ?_)
    obtain ⟨entry, mem, rfl⟩ := List.mem_map.mp taken
    rw [unambiguous.lookup_eq_some_iff.mpr mem] at absent
    cases absent
  · exact List.forall_mem_append.mpr ⟨unambiguous.inner, List.forall_mem_singleton.mpr new⟩

theorem map_fst_replace (key : String) (value : Value) (entries : Entries) :
    (replace key value entries).map Prod.fst = entries.map Prod.fst := by
  fun_induction replace key value entries with
  | case1 => rfl
  | case2 old rest => rfl
  | case3 other old rest differ ih => rw [List.map_cons, List.map_cons, ih]

theorem Unambiguous.replace (unambiguous : entries.Unambiguous) (new : value.Unambiguous) :
    (replace key value entries).Unambiguous := by
  refine ⟨(map_fst_replace key value entries).symm ▸ unambiguous.distinct, ?_⟩
  have inner := unambiguous.inner
  clear unambiguous
  fun_induction Entries.replace key value entries with
  | case1 => exact inner
  | case2 old rest => exact List.forall_mem_cons.mpr ⟨new, (List.forall_mem_cons.mp inner).2⟩
  | case3 other old rest differ ih =>
    obtain ⟨first, others⟩ := List.forall_mem_cons.mp inner
    exact List.forall_mem_cons.mpr ⟨first, ih others⟩

/-! ## Changes to tables -/

def Safe (step : Entries → Option Entries) : Prop :=
  ∀ entries after, entries.Unambiguous → step entries = some after → after.Unambiguous

theorem Safe.updateLast {step : Entries → Option Entries} (safe : Safe step) {afterwards : List Entries}
    (each : ∀ entries ∈ elements, entries.Unambiguous)
    (updated : updateLast step elements = some afterwards) :
    ∀ entries ∈ afterwards, entries.Unambiguous := by
  fun_induction Entries.updateLast step elements generalizing afterwards with
  | case1 => cases updated
  | case2 last =>
    obtain ⟨changed, done, rfl⟩ := Option.map_eq_some_iff.mp updated
    exact List.forall_mem_singleton.mpr (safe last changed (List.forall_mem_singleton.mp each) done)
  | case3 first second rest ih =>
    obtain ⟨changed, done, rfl⟩ := Option.map_eq_some_iff.mp updated
    obtain ⟨head, others⟩ := List.forall_mem_cons.mp each
    exact List.forall_mem_cons.mpr ⟨head, ih others done⟩

theorem Safe.updateAt {step : Entries → Option Entries} (safe : Safe step) (path : List String) :
    Safe (updateAt step path) := by
  induction path with
  | nil => exact safe
  | cons key path ih =>
    intro entries after unambiguous updated
    rw [Entries.updateAt] at updated
    split at updated
    · rename_i absent
      obtain ⟨inner, done, rfl⟩ := Option.map_eq_some_iff.mp updated
      exact unambiguous.append absent (unambiguous_table_iff.mpr (ih _ _ unambiguous_nil done))
    · cases updated
    · rename_i found
      obtain ⟨inner, done, rfl⟩ := Option.map_eq_some_iff.mp updated
      have before := unambiguous_table_iff.mp (unambiguous.lookup found)
      exact unambiguous.replace (unambiguous_table_iff.mpr (ih _ _ before done))
    · rename_i found
      obtain ⟨inner, done, rfl⟩ := Option.map_eq_some_iff.mp updated
      have before := unambiguous_tables_iff.mp (unambiguous.lookup found)
      exact unambiguous.replace (unambiguous_tables_iff.mpr (ih.updateLast before done))
    · cases updated

theorem safe_openTable (key : String) : Safe (openTable key) := by
  intro entries after unambiguous opened
  rw [openTable] at opened
  split at opened
  · rename_i absent
    cases opened
    exact unambiguous.append absent (unambiguous_table_iff.mpr unambiguous_nil)
  · rename_i found
    cases opened
    exact unambiguous.replace
      (unambiguous_table_iff.mpr (unambiguous_table_iff.mp (unambiguous.lookup found)))
  · cases opened

theorem safe_appendTable (key : String) : Safe (appendTable key) := by
  intro entries after unambiguous appended
  rw [appendTable] at appended
  split at appended
  · rename_i absent
    cases appended
    refine unambiguous.append absent (unambiguous_tables_iff.mpr ?_)
    exact List.forall_mem_singleton.mpr unambiguous_nil
  · rename_i found
    cases appended
    refine unambiguous.replace (unambiguous_tables_iff.mpr ?_)
    exact List.forall_mem_append.mpr
      ⟨unambiguous_tables_iff.mp (unambiguous.lookup found), List.forall_mem_singleton.mpr unambiguous_nil⟩
  · cases appended

theorem safe_assign (takesKeys : Bool) (new : value.Unambiguous) (path : List String) (key : String) :
    Safe (assign takesKeys value path key) := by
  induction path generalizing takesKeys with
  | nil =>
    intro entries after unambiguous assigned
    rw [assign] at assigned
    split at assigned
    · rw [insertNew] at assigned
      split at assigned
      · rename_i absent
        cases assigned
        exact unambiguous.append absent new
      · cases assigned
    · cases assigned
  | cons first path ih =>
    intro entries after unambiguous assigned
    rw [assign] at assigned
    split at assigned
    · rename_i absent
      obtain ⟨inner, done, rfl⟩ := Option.map_eq_some_iff.mp assigned
      exact unambiguous.append absent (unambiguous_table_iff.mpr (ih _ _ _ unambiguous_nil done))
    · rename_i found
      obtain ⟨inner, done, rfl⟩ := Option.map_eq_some_iff.mp assigned
      have before := unambiguous_table_iff.mp (unambiguous.lookup found)
      exact unambiguous.replace (unambiguous_table_iff.mpr (ih _ _ _ before done))
    · rename_i found
      obtain ⟨inner, done, rfl⟩ := Option.map_eq_some_iff.mp assigned
      have before := unambiguous_table_iff.mp (unambiguous.lookup found)
      exact unambiguous.replace (unambiguous_table_iff.mpr (ih _ _ _ before done))
    · rename_i found
      obtain ⟨inner, done, rfl⟩ := Option.map_eq_some_iff.mp assigned
      have before := unambiguous_tables_iff.mp (unambiguous.lookup found)
      exact unambiguous.replace (unambiguous_tables_iff.mpr ((ih false).updateLast before done))
    · cases assigned

end Entries

/-! ## Readers -/

def ValueReader.Unambiguous (reader : ValueReader) : Prop :=
  ∀ input value rest, reader input = some (value, rest) → value.Unambiguous

variable {reader : ValueReader} {input rest : List Char} {entries after : Entries}

theorem unambiguous_readItems (items : reader.Unambiguous) {count : Nat} {values : List Value}
    (read : readItems reader count input = some (values, rest)) : ∀ value ∈ values, value.Unambiguous := by
  induction count generalizing input values with
  | zero => cases read
  | succ count ih =>
    rw [readItems] at read
    simp only [Option.bind_eq_bind, Option.bind_eq_some_iff] at read
    obtain ⟨content, -, read⟩ := read
    split at read
    · cases read
      exact List.forall_mem_nil _
    · simp only [Option.bind_eq_some_iff] at read
      obtain ⟨⟨value, left⟩, first, behind, -, read⟩ := read
      have unambiguous := items _ _ _ first
      split at read
      · simp only [Option.bind_eq_some_iff] at read
        obtain ⟨⟨others, last⟩, more, read⟩ := read
        cases read
        exact List.forall_mem_cons.mpr ⟨unambiguous, ih more⟩
      · cases read
        exact List.forall_mem_singleton.mpr unambiguous
      · cases read

theorem unambiguous_readPair (values : reader.Unambiguous) {key : List String × String} {value : Value}
    (read : readPair reader input = some ((key, value), rest)) : value.Unambiguous := by
  unfold readPair at read
  simp only [Option.bind_eq_bind, Option.bind_eq_some_iff] at read
  obtain ⟨_, -, _, -, ⟨found, _⟩, given, same⟩ := read
  cases same
  exact values _ _ _ given

theorem unambiguous_readPairs (values : reader.Unambiguous) {count : Nat} (unambiguous : entries.Unambiguous)
    (read : readPairs reader count entries input = some (after, rest)) : after.Unambiguous := by
  induction count generalizing entries input with
  | zero => cases read
  | succ count ih =>
    rw [readPairs] at read
    simp only [Option.bind_eq_bind, Option.bind_eq_some_iff] at read
    obtain ⟨⟨⟨⟨path, key⟩, value⟩, left⟩, pair, more, assigned, read⟩ := read
    have next : more.Unambiguous :=
      Entries.safe_assign true (unambiguous_readPair values pair) path key _ _ unambiguous assigned
    split at read
    · exact ih next read
    · cases read
      exact next
    · cases read

theorem unambiguous_readInline (values : reader.Unambiguous) {value : Value}
    (read : readInline reader input = some (value, rest)) : value.Unambiguous := by
  unfold readInline at read
  split at read
  · cases read
    exact Entries.unambiguous_table_iff.mpr Entries.unambiguous_nil
  · obtain ⟨⟨entries, left⟩, pairs, same⟩ := Option.map_eq_some_iff.mp read
    cases same
    exact Entries.unambiguous_table_iff.mpr (unambiguous_readPairs values Entries.unambiguous_nil pairs)

theorem unambiguous_readDatetime : ValueReader.Unambiguous readDatetime := by
  intro input value rest read
  unfold readDatetime at read
  split at read
  · cases read
    exact .datetime
  · obtain ⟨left, -, same⟩ := Option.map_eq_some_iff.mp read
    cases same
    exact .datetime

theorem unambiguous_readFloat : ValueReader.Unambiguous readFloat := by
  intro input value rest read
  unfold readFloat readSpecial at read
  simp only [Option.bind_eq_bind] at read
  split at read
  · rename_i named
    cases read
    split at named
    · cases named
      exact .float
    · cases named
      exact .float
    · cases named
  · simp only [Option.bind_eq_some_iff] at read
    obtain ⟨_, -, _, -, _, -, read⟩ := read
    split at read
    · cases read
    · split at read
      · cases read
        exact .float
      · cases read

theorem unambiguous_readBased {base : Nat} {valid : Char → Bool} :
    ValueReader.Unambiguous (readBased base valid) := by
  intro input value rest read
  unfold readBased at read
  simp only [Option.bind_eq_bind, Option.bind_eq_some_iff] at read
  obtain ⟨_, -, number, -, same⟩ := read
  cases same
  exact .integer number

theorem unambiguous_readInteger : ValueReader.Unambiguous readInteger := by
  intro input value rest read
  unfold readInteger at read
  split at read
  · exact unambiguous_readBased _ _ _ read
  · exact unambiguous_readBased _ _ _ read
  · exact unambiguous_readBased _ _ _ read
  · simp only [Option.bind_eq_bind, Option.bind_eq_some_iff] at read
    obtain ⟨_, -, number, -, same⟩ := read
    cases same
    exact .integer number

theorem unambiguous_readNumber : ValueReader.Unambiguous readNumber := by
  intro input value rest read
  rcases Option.or_eq_some_iff.mp ((Option.orElse_eq_or ..).symm.trans read) with dated | ⟨-, read⟩
  · exact unambiguous_readDatetime _ _ _ dated
  rcases Option.or_eq_some_iff.mp ((Option.orElse_eq_or ..).symm.trans read) with float | ⟨-, integer⟩
  · exact unambiguous_readFloat _ _ _ float
  · exact unambiguous_readInteger _ _ _ integer

theorem unambiguous_readScalar : ValueReader.Unambiguous readScalar := by
  intro input value rest read
  unfold readScalar at read
  split at read
  · cases read
    exact .boolean true
  · cases read
    exact .boolean false
  · split at read
    · obtain ⟨⟨content, left⟩, -, same⟩ := Option.map_eq_some_iff.mp read
      cases same
      exact .text _
    · exact unambiguous_readNumber _ _ _ read
  · cases read

theorem unambiguous_readValue (depth : Nat) : ValueReader.Unambiguous (readValue depth) := by
  induction depth with
  | zero => exact unambiguous_readScalar
  | succ depth ih =>
    intro input value rest read
    unfold readValue at read
    split at read
    · exact unambiguous_readScalar _ _ _ read
    · rename_i below _ deeper
      cases deeper
      obtain ⟨⟨items, left⟩, listed, same⟩ := Option.map_eq_some_iff.mp read
      cases same
      exact .array (unambiguous_readItems ih listed)
    · rename_i below _ deeper
      cases deeper
      exact unambiguous_readInline ih read
    · exact unambiguous_readScalar _ _ _ read

/-! ## Documents -/

variable {progress next : Progress}

theorem unambiguous_readHeader (unambiguous : progress.entries.Unambiguous)
    (read : readHeader progress input = some (next, rest)) : next.entries.Unambiguous := by
  unfold readHeader at read
  split at read
  · simp only [Option.bind_eq_bind, Option.bind_eq_some_iff] at read
    obtain ⟨⟨⟨path, key⟩, _⟩, -, _, -, _, -, entries, named, _, -, same⟩ := read
    cases same
    exact (Entries.safe_appendTable key).updateAt path _ _ unambiguous named
  · simp only [Option.bind_eq_bind, Option.bind_eq_some_iff] at read
    obtain ⟨⟨⟨path, key⟩, _⟩, -, _, -, entries, named, _, -, same⟩ := read
    cases same
    exact (Entries.safe_openTable key).updateAt path _ _ unambiguous named

theorem unambiguous_readAssignment (unambiguous : progress.entries.Unambiguous)
    (read : readAssignment progress input = some (next, rest)) : next.entries.Unambiguous := by
  unfold readAssignment at read
  simp only [Option.bind_eq_bind, Option.bind_eq_some_iff] at read
  obtain ⟨⟨⟨⟨path, key⟩, value⟩, _⟩, pair, entries, assigned, _, -, same⟩ := read
  cases same
  have given := unambiguous_readPair (unambiguous_readValue _) pair
  exact (Entries.safe_assign true given path key).updateAt progress.header _ _ unambiguous assigned

theorem unambiguous_readLinesOf {count : Nat} (unambiguous : progress.entries.Unambiguous)
    (read : readLinesOf count progress input = some next) : next.entries.Unambiguous := by
  induction count generalizing progress input with
  | zero => cases read
  | succ count ih =>
    unfold readLinesOf at read
    simp only [Option.bind_eq_bind] at read
    split at read
    · cases read
      exact unambiguous
    · obtain ⟨left, -, read⟩ := Option.bind_eq_some_iff.mp read
      exact ih unambiguous read
    · exact ih unambiguous read
    · exact ih unambiguous read
    · obtain ⟨⟨named, left⟩, header, read⟩ := Option.bind_eq_some_iff.mp read
      exact ih (unambiguous_readHeader unambiguous header) read
    · obtain ⟨⟨assigned, left⟩, assignment, read⟩ := Option.bind_eq_some_iff.mp read
      exact ih (unambiguous_readAssignment unambiguous assignment) read

/-- No table that a document writes, at any depth, gives two values to a key. -/
theorem unambiguous_parse? {document : String} {value : Value} (parsed : parse? document = some value) :
    value.Unambiguous := by
  obtain ⟨progress, read, rfl⟩ := Option.map_eq_some_iff.mp parsed
  exact Entries.unambiguous_table_iff.mpr (unambiguous_readLinesOf Entries.unambiguous_nil read)

-- a header that comes twice
example : parse? "a = 1\n[b]\nc = 2\n[b]\n" = none := by
  decide

end BlockBuilder.Toml
