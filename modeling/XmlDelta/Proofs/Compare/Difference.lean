import Mathlib.Data.Option.Basic
import XmlDelta.Proofs.Compare.Noise

set_option autoImplicit false

namespace XmlDelta.Compare

open XmlDelta.Document

variable {side other : List Element}

/-- The report `es` of the children of `side` whose signatures `other` lacks. -/
structure OnlyIn (side other es : List Element) : Prop where
  signatures : ∀ s, s ∈ es.map signature ↔ s ∈ side.map signature ∧ s ∉ other.map signature
  distinct : (es.map signature).Nodup
  ordered : (es.map signature).Pairwise fun s t =>
    (side.map signature).idxOf s < (side.map signature).idxOf t
  last : ∀ e ∈ es, Keyed.LastOf signature side e

theorem mem_keys_bySignature {s : String} :
    s ∈ Keyed.keys (bySignature side) ↔ s ∈ side.map signature :=
  Keyed.mem_keys_index_iff

theorem map_signature_onlyIn (side : List Element) (other : Keyed Element) :
    (onlyIn (bySignature side) other).map signature =
      (Keyed.keys (bySignature side)).filter fun s => !(Keyed.keys other).contains s := by
  have own : ∀ p ∈ (bySignature side).filter fun p => !(Keyed.keys other).contains p.1,
      signature p.2 = p.1 :=
    fun p inside => Keyed.key_of_mem_index (List.mem_of_mem_filter inside)
  have keys : Keyed.keys (bySignature side) = (bySignature side).map Prod.fst := rfl
  rw [onlyIn, List.map_map, keys, List.filter_map]
  exact List.map_congr_left own

theorem onlyIn_bySignature (side other : List Element) :
    OnlyIn side other (onlyIn (bySignature side) (bySignature other)) where
  signatures := by
    intro s
    rw [map_signature_onlyIn, List.mem_filter, mem_keys_bySignature]
    simp [mem_keys_bySignature]
  distinct := by
    rw [map_signature_onlyIn]
    exact (Keyed.nodup_keys_index side).filter _
  ordered := by
    rw [map_signature_onlyIn]
    exact (Keyed.pairwise_keys_index side).filter _
  last := by
    intro e inside
    obtain ⟨p, entry, rfl⟩ := List.mem_map.mp inside
    exact Keyed.mem_values_index_iff.mp (List.mem_map_of_mem (List.mem_of_mem_filter entry))

theorem OnlyIn.unique {es fs : List Element} (left : OnlyIn side other es)
    (right : OnlyIn side other fs) : es = fs := by
  have same : es.map signature = fs.map signature := by
    have perm : (es.map signature).Perm (fs.map signature) :=
      (List.perm_ext_iff_of_nodup left.distinct right.distinct).mpr fun s =>
        (left.signatures s).trans (right.signatures s).symm
    exact perm.eq_of_pairwise (fun _ _ _ _ before after => absurd before (Nat.lt_asymm after))
      left.ordered right.ordered
  have shown : ∀ gs, OnlyIn side other gs →
      gs.map some = (gs.map signature).map fun s => side.reverse.find? (signature · == s) := by
    intro gs report
    rw [List.map_map]
    exact List.map_congr_left fun e inside =>
      (Keyed.lastOf_iff_find?.mp (report.last e inside)).symm
  have equal : es.map some = fs.map some := by
    rw [shown es left, shown fs right, same]
  exact List.map_injective_iff.mpr (Option.some_injective _) equal

theorem OnlyIn.eq_nil_iff {es : List Element} (report : OnlyIn side other es) :
    es = [] ↔ side.map signature ⊆ other.map signature := by
  rw [← List.map_eq_nil_iff (f := signature), List.eq_nil_iff_forall_not_mem]
  refine forall_congr' fun s => ?_
  rw [report.signatures, not_and_not_right]

theorem changes_difference (old new : List Element) :
    (∀ es, OnlyIn new old es ↔ es = (changes old new).additions) ∧
    (∀ es, OnlyIn old new es ↔ es = (changes old new).removals) ∧
    ((changes old new).isEmpty = true ↔ ∀ s, s ∈ old.map signature ↔ s ∈ new.map signature) ∧
    ∀ s, s ∈ new.map signature ↔
      s ∈ old.map signature ∧ s ∉ (changes old new).removals.map signature ∨
        s ∈ (changes old new).additions.map signature := by
  have additions : OnlyIn new old (changes old new).additions := onlyIn_bySignature new old
  have removals : OnlyIn old new (changes old new).removals := onlyIn_bySignature old new
  refine ⟨?_, ?_, ?_, ?_⟩
  · exact fun es => ⟨fun report => report.unique additions, fun same => same ▸ additions⟩
  · exact fun es => ⟨fun report => report.unique removals, fun same => same ▸ removals⟩
  · rw [Changes.isEmpty, Bool.and_eq_true, List.isEmpty_iff, List.isEmpty_iff,
      additions.eq_nil_iff, removals.eq_nil_iff]
    exact ⟨fun known s => ⟨fun inOld => known.2 inOld, fun inNew => known.1 inNew⟩,
      fun same => ⟨fun s => (same s).mpr, fun s => (same s).mp⟩⟩
  · intro s
    rw [additions.signatures, removals.signatures]
    tauto

-- The signature of `y` stands where it first came, shown by the child that had it last.
example :
    let z : Element := { tag := "z" }
    let y (cs : List Element) : Element := { tag := "y", children := cs }
    (changes [{ tag := "x" }] [y [], { tag := "x", text := some " " }, z, y [z]]).additions =
      [y [z], z] := by
  with_unfolding_all rfl

end XmlDelta.Compare
