import Mathlib.Tactic.TFAE
import Stratagem.Node.Record
import Stratagem.Proofs.Node.Same
import Stratagem.Proofs.Node.Words

/-!
# Trees written as data

The record of a tree keeps all of the tree. For a well-typed node there is one, and reading its
fields gives the node back (`exists_written`), so trees with equal records are equal.

Data are compared by their own equality, for which the order of the fields of a record does not
count and a truth value is a number. Records of trees have no truth values, and the tag of one says
which keys it has and in which order (`Described`). For such data the comparison is plain equality
(`same_iff_eq`).
-/

namespace Stratagem

namespace Node.Kind

/-- The keys of the fields of a kind, in the order in which records have them. -/
def keys : Kind → List String
  | .assign => ["name", "value"]
  | .done => []
  | .move => ["direction"]
  | .shoot => ["direction", "expenditure"]
  | .block => ["statements"]
  | .ifElse => ["condition", "then", "else"]
  | .whileLoop => ["condition", "body"]
  | .number => ["value"]
  | .variable => ["name"]
  | .binary => ["operator", "left", "right"]
  | .paren => ["inner"]
  | .info => ["kind", "direction"]

theorem nodup_keys (kind : Kind) : ("node_type" :: kind.keys).Nodup := by
  cases kind <;> decide

end Node.Kind

/-! ## Equality of data -/

namespace Datum

mutual

/-- Whether a datum has no truth value in it and each record starts with the tag of a kind, followed
by the fields of that kind. -/
def Described : Datum → Prop
  | .bool _ => False
  | .list items => AllDescribed items
  | .record fields =>
    (∃ (kind : Node.Kind) (rest : List (String × Datum)),
      fields = ("node_type", .text kind.tag) :: rest ∧ rest.map Prod.fst = kind.keys) ∧
    FieldsDescribed fields
  | _ => True

/-- Whether every item of a list is described. -/
def AllDescribed : List Datum → Prop
  | [] => True
  | d :: ds => Described d ∧ AllDescribed ds

/-- Whether the value of every field is described. -/
def FieldsDescribed : List (String × Datum) → Prop
  | [] => True
  | (_, d) :: fields => Described d ∧ FieldsDescribed fields

end

/-- Where no key is there twice, every field is found. -/
theorem lookup_of_nodup {fields : List (String × Datum)} (h : (fields.map Prod.fst).Nodup) :
    ∀ field ∈ fields, fields.lookup field.1 = some field.2 := by
  intro field hfield
  obtain ⟨before, after, rfl⟩ := List.append_of_mem hfield
  refine List.lookup_eq_some_iff.mpr ⟨before, after, rfl, fun other hother => ?_⟩
  rw [List.map_append, List.map_cons, List.nodup_append] at h
  rw [bne_iff_ne]
  exact (h.2.2 other.1 (List.mem_map_of_mem hother) field.1 List.mem_cons_self).symm

/-- Described records that are the same have the same tag, so they have the same keys. -/
theorem keys_eq_of_same {fs gs : List (String × Datum)} (hfs : (Datum.record fs).Described)
    (hgs : (Datum.record gs).Described) (h : sameFields fs gs = true) :
    fs.map Prod.fst = gs.map Prod.fst ∧ (gs.map Prod.fst).Nodup := by
  obtain ⟨⟨kind, fs, rfl, hkeys⟩, -⟩ := hfs
  obtain ⟨⟨kind', gs, rfl, hkeys'⟩, -⟩ := hgs
  rw [sameFields, Bool.and_eq_true] at h
  have htag : kind.tag = kind'.tag := by simpa [same] using h.1
  obtain rfl := Node.Kind.tag_injective htag
  rw [List.map_cons, List.map_cons, hkeys, hkeys']
  exact ⟨rfl, kind.nodup_keys⟩

mutual

/-- **Described data are the same exactly when they are equal.** -/
theorem same_iff_eq : (d e : Datum) → d.Described → e.Described → (d.same e = true ↔ d = e)
  | .absent, e, _, _ => by cases e <;> simp [same]
  | .int n, e, _, h' => by
    cases e with
    | bool b => exact absurd h' not_false
    | _ => simp [same, asInt?, eq_comm]
  | .text s, e, _, _ => by cases e <;> simp [same]
  | .list items, e, h, h' => by
    cases e with
    | list items' => rw [same, sameItems_iff_eq items items' h h', Datum.list.injEq]
    | _ => simp [same]
  | .record fs, e, h, h' => by
    cases e with
    | record gs =>
      rw [same, Bool.and_eq_true, decide_eq_true_iff, Datum.record.injEq]
      constructor
      · intro hsame
        obtain ⟨hkeys, hnodup⟩ := keys_eq_of_same h h' hsame.2
        exact (sameFields_iff_eq fs gs gs h.2 h'.2 hkeys (lookup_of_nodup hnodup)).mp hsame.2
      · rintro rfl
        obtain ⟨⟨kind, rest, hsplit, hkeys⟩, hfields⟩ := h
        have hnodup : (fs.map Prod.fst).Nodup := by
          rw [hsplit, List.map_cons, hkeys]
          exact kind.nodup_keys
        have hlookup := lookup_of_nodup hnodup
        exact ⟨rfl, (sameFields_iff_eq fs fs fs hfields hfields rfl hlookup).mpr rfl⟩
    | _ => simp [same]

theorem sameItems_iff_eq : (ds es : List Datum) → AllDescribed ds → AllDescribed es →
    (sameItems ds es = true ↔ ds = es)
  | [], [], _, _ => by simp [sameItems]
  | [], _ :: _, _, _ => by simp [sameItems]
  | _ :: _, [], _, _ => by simp [sameItems]
  | d :: ds, e :: es, ⟨hd, hds⟩, ⟨he, hes⟩ => by
    rw [sameItems, Bool.and_eq_true, same_iff_eq d e hd he, sameItems_iff_eq ds es hds hes,
      List.cons.injEq]

/-- Fields that all are found in `hs` with the values of `gs`. -/
theorem sameFields_iff_eq : (fs gs hs : List (String × Datum)) → FieldsDescribed fs →
    FieldsDescribed gs → fs.map Prod.fst = gs.map Prod.fst →
    (∀ field ∈ gs, hs.lookup field.1 = some field.2) → (sameFields fs hs = true ↔ fs = gs)
  | [], [], _, _, _, _, _ => by simp [sameFields]
  | (key, d) :: fs, (key', e) :: gs, hs, ⟨hd, hfs⟩, ⟨he, hgs⟩, hkeys, hfound => by
    rw [List.map_cons, List.map_cons, List.cons.injEq] at hkeys
    obtain ⟨rfl, hkeys⟩ := hkeys
    obtain ⟨hfirst, hothers⟩ := List.forall_mem_cons.mp hfound
    rw [sameFields, hfirst, Bool.and_eq_true, sameFields_iff_eq fs gs hs hfs hgs hkeys hothers]
    simp [same_iff_eq d e hd he]

end

end Datum

/-! ## Reading -/

namespace Node

/-- What the value of a field can stand for. -/
def part (d : Datum) : Part where
  datum := d
  node := read d
  statements :=
    match d with
    | .list items => readItems items
    | .text s => .ok (s.toList.map fun c => .datum (.text (String.singleton c)))
    | .record fields => .ok (fields.map fun field => .datum (.text field.1))
    | d => .error (.notIterable d.sort)

/-- The fields of a record, read one by one. -/
def partsOf (fields : List (String × Datum)) : Parts :=
  fields.map fun field => (field.1, part field.2)

theorem readFields_eq_partsOf (fields : List (String × Datum)) :
    readFields fields = partsOf fields := by
  induction fields with
  | nil => rfl
  | cons field fields ih =>
    obtain ⟨key, d⟩ := field
    rw [partsOf, List.map_cons, ← partsOf, ← ih]
    cases d <;> simp [readFields, part, read]

section

variable {fields : List (String × Datum)} {key : String} {d : Datum}

theorem lookup_partsOf (h : fields.lookup key = some d) :
    (partsOf fields).lookup key = some (part d) := by
  induction fields with
  | nil => simp at h
  | cons field fields ih =>
    rw [partsOf, List.map_cons, ← partsOf, List.lookup_cons]
    rw [List.lookup_cons] at h
    cases hkey : key == field.1 with
    | true =>
      rw [hkey] at h
      exact congrArg (some ∘ part) (Option.some.inj h)
    | false =>
      rw [hkey] at h
      exact ih h

theorem node?_partsOf {n : Node} (h : fields.lookup key = some d) (hread : read d = .ok n) :
    (partsOf fields).node? key = .ok (some n) := by
  rw [Parts.node?, lookup_partsOf h]
  exact congrArg (Except.map some) hread

theorem datum?_partsOf (h : fields.lookup key = some d) : (partsOf fields).datum? key = some d := by
  rw [Parts.datum?, lookup_partsOf h]
  rfl

theorem direction?_partsOf {direction : Direction}
    (h : fields.lookup "direction" = some (.text direction.keyword)) :
    (partsOf fields).direction? = .ok (some (some direction)) := by
  rw [Parts.direction?, datum?_partsOf h]
  cases direction <;> rfl

end

/-- A record with the tag of a kind is read as a node of that kind. -/
theorem read_tagged (kind : Kind) (fields : List (String × Datum)) :
    read (tagged kind fields) =
      assemble kind (partsOf (("node_type", .text kind.tag) :: fields)) := by
  rw [tagged, read, readFields_eq_partsOf]
  cases kind <;> rfl

/-- `Written n d`: the node has the record `d`, which is described and read back to the node. -/
structure Written (n : Node) (d : Datum) : Prop where
  record : n.record = .ok d
  described : d.Described
  read : read d = .ok n

/-- `AllWritten ns ds`: the nodes have the records `ds`, which are described and read back to
them. -/
structure AllWritten (ns : List Node) (ds : List Datum) : Prop where
  records : records ns = .ok ds
  described : Datum.AllDescribed ds
  readItems : readItems ds = .ok ns

/-- A record with the fields of its kind, from which the node is put together again. -/
theorem written_tagged {n : Node} {kind : Kind} {fields : List (String × Datum)}
    (hrecord : n.record = .ok (tagged kind fields)) (hkeys : fields.map Prod.fst = kind.keys)
    (hdescribed : Datum.FieldsDescribed fields)
    (hread : assemble kind (partsOf (("node_type", .text kind.tag) :: fields)) = .ok n) :
    Written n (tagged kind fields) where
  record := hrecord
  described := ⟨⟨kind, fields, rfl, hkeys⟩, trivial, hdescribed⟩
  read := (read_tagged kind fields).trans hread

mutual

/-- **A well-typed node is read back from its record.** -/
theorem exists_written : (n : Node) → n.WellTyped → ∃ d, Written n d
  | .assign name value, ⟨⟨s, hname⟩, hvalue⟩ => by
    obtain ⟨d, hd⟩ := exists_written value hvalue
    subst hname
    have hrecord : (assign (.text s) value).record =
        .ok (tagged .assign [("name", .text s), ("value", d)]) := by
      rw [record, hd.record]
      rfl
    refine ⟨_, written_tagged hrecord rfl ⟨trivial, hd.described, trivial⟩ ?_⟩
    rw [assemble, datum?_partsOf rfl, node?_partsOf rfl hd.read]
    rfl
  | .done, _ => ⟨_, written_tagged rfl rfl trivial rfl⟩
  | .move (some direction), _ => by
    refine ⟨_, written_tagged rfl rfl ⟨trivial, trivial⟩ ?_⟩
    rw [assemble, direction?_partsOf rfl]
    rfl
  | .shoot (some direction) expenditure, ⟨_, hexpenditure⟩ => by
    obtain ⟨d, hd⟩ := exists_written expenditure hexpenditure
    have hrecord : (shoot (some direction) expenditure).record =
        .ok (tagged .shoot [("direction", .text direction.keyword), ("expenditure", d)]) := by
      rw [record, hd.record]
      rfl
    refine ⟨_, written_tagged hrecord rfl ⟨trivial, hd.described, trivial⟩ ?_⟩
    rw [assemble, direction?_partsOf rfl, node?_partsOf rfl hd.read]
    rfl
  | .block statements, h => by
    obtain ⟨ds, hds⟩ := exists_allWritten statements h
    have hrecord : (block statements).record = .ok (tagged .block [("statements", .list ds)]) := by
      rw [record, hds.records]
      rfl
    refine ⟨_, written_tagged hrecord rfl ⟨hds.described, trivial⟩ ?_⟩
    show (readItems ds >>= fun ns => .ok (block ns)) = _
    rw [hds.readItems]
    rfl
  | .ifElse condition thenBranch elseBranch, ⟨hcondition, hthen, helse⟩ => by
    obtain ⟨c, hc⟩ := exists_written condition hcondition
    obtain ⟨t, ht⟩ := exists_written thenBranch hthen
    obtain ⟨e, he⟩ := exists_written elseBranch helse
    have hrecord : (ifElse condition thenBranch elseBranch).record =
        .ok (tagged .ifElse [("condition", c), ("then", t), ("else", e)]) := by
      rw [record, hc.record, ht.record, he.record]
      rfl
    refine ⟨_, written_tagged hrecord rfl ⟨hc.described, ht.described, he.described, trivial⟩ ?_⟩
    rw [assemble, node?_partsOf rfl hc.read, node?_partsOf rfl ht.read, node?_partsOf rfl he.read]
    rfl
  | .whileLoop condition body, ⟨hcondition, hbody⟩ => by
    obtain ⟨c, hc⟩ := exists_written condition hcondition
    obtain ⟨b, hb⟩ := exists_written body hbody
    have hrecord : (whileLoop condition body).record =
        .ok (tagged .whileLoop [("condition", c), ("body", b)]) := by
      rw [record, hc.record, hb.record]
      rfl
    refine ⟨_, written_tagged hrecord rfl ⟨hc.described, hb.described, trivial⟩ ?_⟩
    rw [assemble, node?_partsOf rfl hc.read, node?_partsOf rfl hb.read]
    rfl
  | .number value, ⟨n, hvalue⟩ => by
    subst hvalue
    refine ⟨_, written_tagged rfl rfl ⟨trivial, trivial⟩ ?_⟩
    rw [assemble, datum?_partsOf rfl]
    rfl
  | .variable name, ⟨s, hname⟩ => by
    subst hname
    refine ⟨_, written_tagged rfl rfl ⟨trivial, trivial⟩ ?_⟩
    rw [assemble, datum?_partsOf rfl]
    rfl
  | .binary op left right, ⟨hleft, hright⟩ => by
    obtain ⟨l, hl⟩ := exists_written left hleft
    obtain ⟨r, hr⟩ := exists_written right hright
    have hrecord : (binary op left right).record =
        .ok (tagged .binary [("operator", .text op.symbol), ("left", l), ("right", r)]) := by
      rw [record, hl.record, hr.record]
      rfl
    refine ⟨_, written_tagged hrecord rfl ⟨trivial, hl.described, hr.described, trivial⟩ ?_⟩
    rw [assemble, datum?_partsOf rfl, node?_partsOf rfl hl.read, node?_partsOf rfl hr.read]
    cases op <;> rfl
  | .paren inner, h => by
    obtain ⟨d, hd⟩ := exists_written inner h
    have hrecord : (paren inner).record = .ok (tagged .paren [("inner", d)]) := by
      rw [record, hd.record]
      rfl
    refine ⟨_, written_tagged hrecord rfl ⟨hd.described, trivial⟩ ?_⟩
    rw [assemble, node?_partsOf rfl hd.read]
    rfl
  | .info .ally, _ => ⟨_, written_tagged rfl rfl ⟨trivial, trivial, trivial⟩ rfl⟩
  | .info .opponent, _ => ⟨_, written_tagged rfl rfl ⟨trivial, trivial, trivial⟩ rfl⟩
  | .info (.nearby direction), _ => by
    refine ⟨_, written_tagged rfl rfl ⟨trivial, trivial, trivial⟩ ?_⟩
    rw [assemble, direction?_partsOf rfl]
    rfl

theorem exists_allWritten : (ns : List Node) → AllWellTyped ns → ∃ ds, AllWritten ns ds
  | [], _ => ⟨[], rfl, trivial, rfl⟩
  | n :: ns, ⟨hn, hns⟩ => by
    obtain ⟨d, hd⟩ := exists_written n hn
    obtain ⟨ds, hds⟩ := exists_allWritten ns hns
    refine ⟨d :: ds, ?_, ⟨hd.described, hds.described⟩, ?_⟩
    · rw [records, hd.record, hds.records]
      rfl
    · rw [readItems, hd.read, hds.readItems]
      rfl

end

end Node

/-! ## Programs -/

/-- **The data of a program keep all of it.** Every well-typed node has a record, from which the
node is read back. So for well-typed programs there are data, and these are the same exactly when
the programs are. -/
theorem data_determine_program :
    (∀ n : Node, n.WellTyped → ∃ d, n.record = .ok d ∧ Node.read d = .ok n) ∧
    ∀ p q : Program, Node.AllWellTyped p → Node.AllWellTyped q →
      ∃ d e, p.data = .ok d ∧ q.data = .ok e ∧
        [d.same e = true, d = e, p.same q = .ok true, p = q].TFAE := by
  constructor
  · intro n h
    obtain ⟨d, hd⟩ := Node.exists_written n h
    exact ⟨d, hd.record, hd.read⟩
  · intro p q hp hq
    obtain ⟨ds, hds⟩ := Node.exists_allWritten p hp
    obtain ⟨es, hes⟩ := Node.exists_allWritten q hq
    refine ⟨.list ds, .list es, ?_, ?_, ?_⟩
    · rw [Program.data, hds.records]
      rfl
    · rw [Program.data, hes.records]
      rfl
    · tfae_have 1 ↔ 2 := Datum.same_iff_eq (.list ds) (.list es) hds.described hes.described
      tfae_have 3 ↔ 4 := Program.same_eq_yes_iff hp hq
      tfae_have 4 → 2 := by
        rintro rfl
        exact congrArg Datum.list (Except.ok.inj (hds.records.symm.trans hes.records))
      tfae_have 2 → 4 := by
        intro h
        obtain rfl := Datum.list.inj h
        exact Except.ok.inj (hds.readItems.symm.trans hes.readItems)
      tfae_finish

/-- A conditional that asks for what is nearby, with a shot at a negative price in the one branch
and an empty block in the other. -/
def lopsided : Node :=
  .ifElse (.info (.nearby .upleft)) (.shoot (some .up) (.number (.int (-3)))) (.block [])

/-- The same with the branches exchanged. -/
def lopsidedBack : Node :=
  .ifElse (.info (.nearby .upleft)) (.block []) (.shoot (some .up) (.number (.int (-3))))

/-- A conditional is read back from its record, and one with exchanged branches has other data. -/
theorem data_lopsided :
    (∃ d, lopsided.record = .ok d ∧ Node.read d = .ok lopsided) ∧
    ∃ d e, Program.data [lopsided] = .ok d ∧ Program.data [lopsidedBack] = .ok e ∧
      d.same e = false := by
  have htyped : lopsided.WellTyped := ⟨trivial, ⟨rfl, _, rfl⟩, trivial⟩
  have htyped' : lopsidedBack.WellTyped := ⟨trivial, trivial, rfl, _, rfl⟩
  refine ⟨data_determine_program.1 lopsided htyped, ?_⟩
  obtain ⟨d, e, hd, he, hsame⟩ :=
    data_determine_program.2 [lopsided] [lopsidedBack] ⟨htyped, trivial⟩ ⟨htyped', trivial⟩
  refine ⟨d, e, hd, he, Bool.eq_false_iff.mpr fun h => ?_⟩
  have heq : [lopsided] = [lopsidedBack] := (hsame.out 0 3).mp h
  simp [lopsided, lopsidedBack] at heq

end Stratagem
