import XmlDelta.CommandLine.Options
import XmlDelta.Proofs.Text.Blank
import XmlDelta.Proofs.Text.Split

set_option autoImplicit false

namespace XmlDelta.CommandLine

open XmlDelta.Disk (Tree)
open XmlDelta.Text

/-- A tag as it is compared. -/
structure Clean (tag : String) : Prop where
  named : tag ≠ ""
  single : ',' ∉ tag.toList
  trimmed : Trimmed tag.toList

theorem tagsOf_empty : tagsOf "" = [] := by
  decide

theorem tagsOf_intercalate (lists : List String) :
    tagsOf (String.intercalate "," lists) = lists.flatMap tagsOf := by
  cases lists with
  | nil => exact tagsOf_empty
  | cons list lists =>
    rw [tagsOf, split_intercalate (by decide), List.map_flatMap, List.filter_flatMap]
    rfl

theorem clean_of_mem_tagsOf {list tag : String} (inside : tag ∈ tagsOf list) : Clean tag := by
  obtain ⟨listed, named⟩ := List.mem_filter.mp inside
  obtain ⟨piece, between, rfl⟩ := List.mem_map.mp listed
  have characters : (trim (String.ofList piece)).toList = trimChars piece := by
    rw [toList_trim, String.toList_ofList]
  refine ⟨by simpa using named, ?_, ?_⟩
  · rw [characters]
    exact fun comma => not_mem_of_mem_split between (mem_of_mem_trimChars comma)
  · rw [characters]
    exact trimmed_trimChars piece

theorem Clean.tagsOf_eq {tag : String} (clean : Clean tag) : tagsOf tag = [tag] := by
  have kept : trim (String.ofList tag.toList) = tag := by
    rw [trim, String.toList_ofList, clean.trimmed.trimChars_eq, String.ofList_toList]
  rw [tagsOf, split_of_not_mem clean.single, List.map_singleton, kept]
  simp [clean.named]

theorem flatMap_tagsOf_of_clean {tags : List String} (clean : ∀ tag ∈ tags, Clean tag) :
    tags.flatMap tagsOf = tags := by
  induction tags with
  | nil => rfl
  | cons tag tags ih =>
    have rest := ih fun other later => clean other (List.mem_cons_of_mem _ later)
    rw [List.flatMap_cons, (clean tag List.mem_cons_self).tagsOf_eq, rest, List.singleton_append]

namespace Options

variable {o : Options}

theorem clean_of_mem_tags {tag : String} (inside : tag ∈ o.tags) : Clean tag := by
  obtain ⟨list, -, listed⟩ := List.mem_flatMap.mp inside
  exact clean_of_mem_tagsOf listed

theorem job?_of_files {a b : String} (old : o.oldFile = some a) (new : o.newFile = some b) :
    o.job? = some ⟨a, b, o.tags⟩ := by
  rw [job?, old, new]

theorem tags_ne_nil_of_sound {t : Tree} (sound : o.fault? t = none) (given : o.job?.isSome = true) :
    o.tags ≠ [] := by
  intro none
  rw [fault?, given, none] at sound
  split at sound
  · cases sound
  · split at sound <;> cases sound

end Options

end XmlDelta.CommandLine
