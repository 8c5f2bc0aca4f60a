import Tckr.Exchange.Reference.AliasConstruction

/-!
# Every symbol's chance

A picker returns an index when the coin falls below its own bucket's threshold, or
when another bucket passes on to it. An index of at least the mean weight keeps one
of the two. One below the mean is nobody's partner, and its threshold rounds to zero
where its weight is less than a `2^33`rd of the mean: it is never drawn.
-/

namespace Tckr.Generation

open AliasTable

/-! ## Thresholds -/

/-- A value rounds to one or more exactly above one half, which rounds to the even zero. -/
theorem one_le_roundHalfEven_iff {q : ℚ} : 1 ≤ roundHalfEven q ↔ 1 / 2 < q := by
  have hle := Int.floor_le q
  have hlt := Int.lt_floor_add_one q
  obtain ⟨hlower, hupper⟩ := roundHalfEven_mem q
  rcases lt_trichotomy ⌊q⌋ 0 with hneg | hzero | hpos
  · have hsmall : (⌊q⌋ : ℚ) + 1 ≤ 0 := by exact_mod_cast hneg
    exact ⟨fun h => by omega, fun h => by linarith⟩
  · unfold roundHalfEven
    rw [hzero]
    dsimp only
    rw [Int.cast_zero, sub_zero, if_pos (Int.zero_emod 2)]
    by_cases hbelow : q < 1 / 2
    · rw [if_pos hbelow]
      exact ⟨fun h => absurd h (by decide), fun h => absurd hbelow (not_lt.mpr h.le)⟩
    · rw [if_neg hbelow]
      by_cases habove : q > 1 / 2
      · rw [if_pos habove]
        exact ⟨fun _ => habove, fun _ => le_rfl⟩
      · rw [if_neg habove]
        exact ⟨fun h => absurd h (by decide), fun h => absurd h habove⟩
  · have hlarge : (1 : ℚ) ≤ ⌊q⌋ := by exact_mod_cast hpos
    exact ⟨fun _ => by linarith, fun _ => by omega⟩

theorem toThreshold_le (q : ℚ) : toThreshold q ≤ uintMaxValue := by
  unfold toThreshold
  split
  · exact Nat.zero_le _
  · split
    · exact le_rfl
    · omega

/-- A share keeps a threshold exactly above one `2^33`rd. -/
theorem toThreshold_pos_iff (q : ℚ) : 0 < toThreshold q ↔ 1 < 8589934592 * q := by
  have hround : 1 ≤ roundHalfEven (q * 4294967296) ↔ 1 < 8589934592 * q := by
    rw [one_le_roundHalfEven_iff]
    constructor <;> intro h <;> linarith
  unfold toThreshold
  by_cases hq : q ≤ 0
  · rw [if_pos hq]
    exact ⟨fun h => absurd h (lt_irrefl 0), fun h => by linarith⟩
  · rw [if_neg hq, ← hround]
    split
    · rename_i hmax
      unfold uintMaxValue at hmax ⊢
      omega
    · omega

/-! ## The finished picker -/

section Finished

variable {weights : List ℚ} {b : Build}

/-- Every bucket of a finished table was written. -/
theorem Build.Finished.exists_entry (h : Build.Finished weights b) {bucket : Nat}
    (hbucket : bucket < weights.length) :
    ∃ e ∈ b.written, e.bucket = bucket ∧ b.thresholds[bucket]? = some (toThreshold e.share) ∧
      b.aliases[bucket]? = some e.partner := by
  obtain ⟨e, he, rfl⟩ := List.mem_map.mp (h.exact.perm.mem_iff.mpr (List.mem_range.mpr hbucket))
  exact ⟨e, he, rfl, h.arrays e he⟩

/-- The aliases of a finished table are indices. -/
theorem Build.Finished.aliases_lt (h : Build.Finished weights b) :
    ∀ i ∈ b.aliases, i < b.aliases.length := by
  intro i hi
  obtain ⟨bucket, hbucket, rfl⟩ := List.getElem_of_mem hi
  rw [h.aliases_length] at hbucket ⊢
  obtain ⟨e, he, -, -, halias⟩ := h.exists_entry hbucket
  rw [(List.getElem?_eq_some_iff.mp halias).2]
  exact List.mem_range.mp (h.exact.partner_of e he).1

/-- A constructor that returns was given positive weights, and returns the finished table. -/
theorem WeightedSymbolPicker.construct_cases {p : WeightedSymbolPicker}
    (h : construct weights = .ok p) : weights ≠ [] ∧ (∀ q ∈ weights, 0 < q) ∧
      ∃ b, Build.Finished weights b ∧ p.thresholds = b.thresholds ∧ p.aliases = b.aliases := by
  unfold construct at h
  by_cases hne : weights = []
  · rw [if_pos hne] at h
    cases h
  · rw [if_neg hne] at h
    cases hfind : weights.findIdx? (fun q => decide (q ≤ 0)) with
    | some index =>
      rw [hfind] at h
      cases h
    | none =>
      have hpos : ∀ q ∈ weights, 0 < q := by
        simpa only [List.findIdx?_eq_none_iff, decide_eq_false_iff_not, not_le] using hfind
      obtain ⟨b, hrun, -, hfinished⟩ := Build.exists_finished hne hpos
      rw [hfind] at h
      simp only [hrun] at h
      split at h
      · obtain rfl := Except.ok.inj h
        exact ⟨hne, hpos, b, hfinished, rfl, rfl⟩
      · cases h

/-- The constructor accepts exactly the non-empty vectors of positive weights. -/
theorem WeightedSymbolPicker.exists_construct_iff (weights : List ℚ) :
    (∃ p, construct weights = .ok p) ↔ weights ≠ [] ∧ ∀ q ∈ weights, 0 < q := by
  constructor
  · rintro ⟨p, hp⟩
    obtain ⟨hne, hpos, -⟩ := construct_cases hp
    exact ⟨hne, hpos⟩
  · rintro ⟨hne, hpos⟩
    obtain ⟨b, hrun, -, hfinished⟩ := Build.exists_finished hne hpos
    have hfind : weights.findIdx? (fun q => decide (q ≤ 0)) = none := by
      simpa only [List.findIdx?_eq_none_iff, decide_eq_false_iff_not, not_le] using hpos
    have hshape : b.thresholds.length = b.aliases.length ∧ 0 < b.aliases.length ∧
        ∀ i ∈ b.aliases, i < b.aliases.length := by
      refine ⟨?_, ?_, hfinished.aliases_lt⟩
      · rw [hfinished.thresholds_length, hfinished.aliases_length]
      · rw [hfinished.aliases_length]
        exact List.length_pos_iff.mpr hne
    refine ⟨⟨b.thresholds, b.aliases, hshape.1, hshape.2.1, hshape.2.2⟩, ?_⟩
    unfold construct
    rw [if_neg hne, hfind]
    simp only [hrun]
    rw [dif_pos hshape]

/-- A draw reaches every bucket with every coin. -/
theorem exists_pick {n bucket : Nat} (coin : Nat) (hbucket : bucket < n) (hn : n ≤ 4294967296)
    (hcoin : coin < 4294967296) : ∃ draw : UInt64, lemire (high draw) n = bucket ∧
      low draw = coin := by
  obtain ⟨h, hh, hscaled⟩ := exists_scaled_eq hbucket hn
  obtain ⟨draw, hhigh, hlow⟩ := exists_draw hh hcoin
  exact ⟨draw, by rw [hhigh]; exact hscaled, hlow⟩

/-- An index is drawn exactly when its own bucket keeps a coin, or another passes on to it. -/
theorem exists_next_iff {p : WeightedSymbolPicker} (h : Build.Finished weights b)
    (hthresholds : p.thresholds = b.thresholds) (haliases : p.aliases = b.aliases)
    (hlength : weights.length ≤ 2147483647) (i : Nat) :
    (∃ draw, p.next draw = i) ↔ ∃ e ∈ b.written,
      e.bucket = i ∧ 0 < toThreshold e.share ∨ e.partner = i := by
  have hcount : p.aliases.length = weights.length := by rw [haliases, h.aliases_length]
  constructor
  · rintro ⟨draw, hdraw⟩
    have hbucket : lemire (high draw) weights.length < weights.length :=
      lemire_lt (high_lt draw) (hcount ▸ p.length_pos)
    obtain ⟨e, he, hentry, hthreshold, halias⟩ := h.exists_entry hbucket
    unfold WeightedSymbolPicker.next at hdraw
    dsimp only at hdraw
    rw [hcount, hthresholds, haliases, List.getD_eq_getElem?_getD, hthreshold,
      List.getD_eq_getElem?_getD, halias, Option.getD_some, Option.getD_some] at hdraw
    refine ⟨e, he, ?_⟩
    by_cases hcoin : low draw < toThreshold e.share
    · rw [if_pos hcoin] at hdraw
      exact .inl ⟨hentry.trans hdraw, by omega⟩
    · rw [if_neg hcoin] at hdraw
      exact .inr hdraw
  · rintro ⟨e, he, hpick⟩
    have hbucket : e.bucket < weights.length :=
      List.mem_range.mp (h.exact.perm.mem_iff.mp (List.mem_map_of_mem he))
    obtain ⟨hthreshold, halias⟩ := h.arrays e he
    have hnext {draw : UInt64} (hdraw : lemire (high draw) weights.length = e.bucket) :
        p.next draw = if low draw < toThreshold e.share then e.bucket else e.partner := by
      unfold WeightedSymbolPicker.next
      dsimp only
      rw [hcount, hdraw, hthresholds, haliases, List.getD_eq_getElem?_getD, hthreshold,
        List.getD_eq_getElem?_getD, halias, Option.getD_some, Option.getD_some]
    rcases hpick with ⟨hi, hpos⟩ | hi
    · obtain ⟨draw, hdraw, hlow⟩ := exists_pick 0 hbucket (by omega) (by norm_num)
      exact ⟨draw, by rw [hnext hdraw, hlow, if_pos hpos, hi]⟩
    · obtain ⟨draw, hdraw, hlow⟩ :=
        exists_pick 4294967295 hbucket (by omega) (by norm_num)
      have hle := toThreshold_le e.share
      refine ⟨draw, ?_⟩
      rw [hnext hdraw, hlow, if_neg (by unfold uintMaxValue at hle; omega), hi]

/-- An index is drawn exactly when its scaled weight keeps a threshold. -/
theorem exists_next_iff_weight {p : WeightedSymbolPicker} (h : Build.Finished weights b)
    (hthresholds : p.thresholds = b.thresholds) (haliases : p.aliases = b.aliases)
    (hlength : weights.length ≤ 2147483647) {i : Nat} (hi : i < weights.length) :
    (∃ draw, p.next draw = i) ↔ 1 < 8589934592 * Build.weightOf weights i := by
  rw [exists_next_iff h hthresholds haliases hlength]
  constructor
  · rintro ⟨e, he, hpick⟩
    have hheavy {e : Entry Nat ℚ} (he : e ∈ b.written) (hpartner : e.partner = i) :
        1 < 8589934592 * Build.weightOf weights i := by
      have hone := (h.exact.partner_of e he).2
      rw [hpartner] at hone
      linarith
    rcases hpick with ⟨hbucket, hpos⟩ | hpartner
    · rcases h.exact.share_or e he with hshare | ⟨e', he', hpartner⟩
      · rwa [← hbucket, ← hshare, ← toThreshold_pos_iff]
      · exact hheavy he' (hpartner.trans hbucket)
    · exact hheavy he hpartner
  · intro hweight
    obtain ⟨e, he, hbucket, -, -⟩ := h.exists_entry hi
    rcases h.exact.share_or e he with hshare | ⟨e', he', hpartner⟩
    · refine ⟨e, he, .inl ⟨hbucket, ?_⟩⟩
      rwa [toThreshold_pos_iff, hshare, hbucket]
    · exact ⟨e', he', .inr (hpartner.trans hbucket)⟩

/-- A scaled weight keeps a threshold exactly when the weight is more than a `2^33`rd of the
mean. -/
theorem weightOf_iff (hne : weights ≠ []) (hpos : ∀ q ∈ weights, 0 < q) {i : Nat}
    (hi : i < weights.length) : 1 < 8589934592 * Build.weightOf weights i ↔
      weights.sum < 8589934592 * weights.length * weights[i] := by
  have hsum : 0 < weights.sum := List.sum_pos weights hpos hne
  have hlt : i < (Build.scale weights).length := by rwa [Build.scale_length]
  have hweight : 8589934592 * Build.weightOf weights i =
      8589934592 * weights.length * weights[i] / weights.sum := by
    rw [Build.weightOf, List.getD_eq_getElem _ _ hlt]
    simp only [Build.scale, List.getElem_map]
    ring
  rw [hweight, one_lt_div hsum]

end Finished

end Tckr.Generation
