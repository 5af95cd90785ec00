import Mathlib
import Screencast.Proofs.Audio.Parts
import Screencast.Proofs.Text.Unmarked

/-!
The labels of the segments. A channel's number and a segment's number can be told from a label, so
no two segments of a mix have the same one, and none has that of the mix.
-/

namespace Screencast

open Text

theorem Text.underscore_notMem_int (n : Int) : '_' ∉ (toString n).toList := by
  rw [Int.toString_eq_repr, Int.repr_eq_if]
  split
  · rw [Nat.toList_repr]
    exact Nat.underscore_not_in_toDigits
  · rw [String.toList_append, Nat.toList_repr]
    intro member
    rcases List.mem_append.mp member with sign | digit
    · exact absurd sign (by decide)
    · exact Nat.underscore_not_in_toDigits digit

variable {α : Type}

namespace Segment

theorem toList_label (segment : Segment α) :
    segment.label.toList = 'c' :: 'h' ::
      ((toString segment.channel).toList ++ '_' :: (toString segment.index).toList) := by
  simp [label]

theorem unmarked_label (segment : Segment α) : Unmarked segment.label.toList := by
  rw [toList_label]
  exact unmarked_append.mpr ⟨(by decide : Unmarked ['c', 'h']), unmarked_append.mpr
    ⟨unmarked_int _, unmarked_append.mpr ⟨(by decide : Unmarked ['_']), unmarked_nat _⟩⟩⟩

theorem label_inj {s t : Segment α} (same : s.label = t.label) :
    s.channel = t.channel ∧ s.index = t.index := by
  have chars := congrArg String.toList same
  rw [toList_label, toList_label, List.cons_inj_right, List.cons_inj_right] at chars
  have notInIndex : '_' ∉ (toString s.index).toList := underscore_notMem_int s.index
  obtain ⟨channels, _, indices⟩ := (List.append_cons_inj_of_notMem
    (underscore_notMem_int s.channel) notInIndex).mp chars
  exact ⟨Int.repr_injective (String.toList_inj.mp channels),
    Nat.repr_injective (String.toList_inj.mp indices)⟩

theorem label_ne_output (segment : Segment α) : segment.label ≠ "aout" := by
  intro same
  have chars := congrArg String.toList same
  rw [toList_label] at chars
  cases chars

end Segment

variable [Number α]

namespace Part

theorem nodup_index_segmentsOn (channels : Channels α) (initial : Table Int α) (id : Int)
    (events : List (Event α)) :
    ((segmentsOn channels initial id events).map (·.index)).Nodup := by
  by_cases mixed : (channels.get id).output.isMixed = true
  · simp only [segmentsOn, mixed, if_true, List.map_map]
    have numbers : (Heard.ofEvents events).zipIdx.map Prod.snd =
        List.range' 0 (Heard.ofEvents events).length := List.zipIdx_map_snd ..
    change ((Heard.ofEvents events).zipIdx.map Prod.snd).Nodup
    rw [numbers]
    exact List.nodup_range'
  · simp [segmentsOn, mixed]

/-- No two segments of a mix have the same label. -/
theorem nodup_labels (events : List (Event α)) (channels : Channels α) (initial : Table Int α) :
    ((segments (ofTimeline events channels initial)).map Segment.label).Nodup := by
  rw [segments_ofTimeline, List.map_flatMap, List.nodup_flatMap]
  constructor
  · intro id _
    have numbered := nodup_index_segmentsOn channels initial id (events.filter (·.channel == id))
    rw [List.Nodup, List.pairwise_map] at numbered ⊢
    exact numbered.imp fun differ same => differ (Segment.label_inj same).2
  · refine (nodup_eraseDups _).imp fun {first second} differ label inFirst inSecond => ?_
    obtain ⟨s, sMember, sLabel⟩ := List.mem_map.mp inFirst
    obtain ⟨t, tMember, tLabel⟩ := List.mem_map.mp inSecond
    have same := (Segment.label_inj (sLabel.trans tLabel.symm)).1
    rw [channel_of_mem_segmentsOn sMember, channel_of_mem_segmentsOn tMember] at same
    exact differ same

end Part

end Screencast
