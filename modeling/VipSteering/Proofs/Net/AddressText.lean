import VipSteering.Net.Address
import VipSteering.Net.Address.Parser
import VipSteering.Proofs.Text.Digits
import VipSteering.Proofs.Text.Pieces

namespace VipSteering.Address

open Text

theorem octet?_toDigits (t : Tolerance) {n : Nat} (h : n < 256) :
    octet? t (Nat.toDigits 10 n) = some n := by
  have hne : Nat.toDigits 10 n ≠ [] := Nat.toDigits_ne_nil
  have hlen : (Nat.toDigits 10 n).length ≤ 3 :=
    (Nat.length_toDigits_le_iff (by decide) (by decide)).mpr (Nat.lt_of_lt_of_le h (by decide))
  have hzero : (Nat.toDigits 10 n).head? = some '0' → (Nat.toDigits 10 n).length = 1 := by
    intro hhead
    by_cases hn : n = 0
    · rw [hn]
      rfl
    · exact absurd hhead (head?_toDigits_ne hn)
  have hread : ofDigits? 10 digit? 0 (Nat.toDigits 10 n) = some n :=
    ofDigits?_toDigits (by decide) digit?_digitChar n
  rw [octet?, if_neg, if_neg, hread]
  · simp [h]
  · simp only [Bool.and_eq_true, decide_eq_true_eq]
    intro hgiven
    obtain ⟨⟨-, hhead⟩, hone⟩ := hgiven
    exact hone (hzero hhead)
  · simp only [Bool.or_eq_true, List.isEmpty_iff, decide_eq_true_eq]
    intro hgiven
    rcases hgiven with hnil | hlong
    · exact hne hnil
    · omega

theorem not_mem_toDigits {base : Nat} (hb : 1 < base) (hle : base ≤ 16) {c : Char}
    (hc : ∀ d < 16, c ≠ Nat.digitChar d) (n : Nat) : c ∉ Nat.toDigits base n := by
  intro hmem
  exact forall_mem_toDigits hb (P := (c ≠ ·)) (fun d hd => hc d (Nat.lt_of_lt_of_le hd hle)) n c
    hmem rfl

theorem quadChars_eq (n : Nat) :
    quadChars n = ['.'].intercalate [Nat.toDigits 10 (n / 16777216 % 256),
      Nat.toDigits 10 (n / 65536 % 256), Nat.toDigits 10 (n / 256 % 256),
      Nat.toDigits 10 (n % 256)] := by
  simp [quadChars, List.intercalate_cons_cons, Nat.shiftRight_eq_div_pow]

theorem fieldChars_quadChars (n : Nat) :
    fieldChars (· = '.') (quadChars n) = [Nat.toDigits 10 (n / 16777216 % 256),
      Nat.toDigits 10 (n / 65536 % 256), Nat.toDigits 10 (n / 256 % 256),
      Nat.toDigits 10 (n % 256)] := by
  rw [quadChars_eq]
  apply fieldChars_intercalate (by simp)
  have hdot (n : Nat) : '.' ∉ Nat.toDigits 10 n := not_mem_toDigits (by decide) (by decide)
    (by decide) n
  simp [hdot]

theorem quad?_quadChars (t : Tolerance) {n : Nat} (h : n < UInt32.size) :
    quad? t (quadChars n) = some n := by
  have hbyte (m : Nat) : m % 256 < 256 := Nat.mod_lt m (by decide)
  rw [quad?, fieldChars_quadChars]
  simp only [octet?_toDigits t (hbyte _), Option.some.injEq]
  simp only [UInt32.size] at h
  omega

theorem quad?_of_no_dot (t : Tolerance) {s : List Char} (h : '.' ∉ s) : quad? t s = none := by
  have hs : fieldChars (· = '.') s = [s] := by
    refine fieldChars_of_no_sep fun c hc => decide_eq_false ?_
    intro heq
    obtain rfl := heq
    exact h hc
  rw [quad?, hs]

theorem group?_toDigits {n : Nat} (h : n < 65536) : group? (Nat.toDigits 16 n) = some n := by
  have hne : Nat.toDigits 16 n ≠ [] := Nat.toDigits_ne_nil
  have hlen : (Nat.toDigits 16 n).length ≤ 4 :=
    (Nat.length_toDigits_le_iff (by decide) (by decide)).mpr h
  rw [group?, if_neg, ofDigits?_toDigits (by decide) hexDigit?_digitChar]
  simp only [Bool.or_eq_true, List.isEmpty_iff, decide_eq_true_eq]
  intro hgiven
  rcases hgiven with hnil | hlong
  · exact hne hnil
  · omega

theorem groupsChars_eq (groups : List Nat) :
    groupsChars groups = [':'].intercalate (groups.map (Nat.toDigits 16)) := by
  induction groups with
  | nil => rfl
  | cons g rest ih =>
    cases rest with
    | nil => simp [groupsChars]
    | cons g' rest => simp [groupsChars, ih, List.intercalate_cons_cons]

theorem colon_not_mem (n : Nat) : ':' ∉ Nat.toDigits 16 n :=
  not_mem_toDigits (by decide) (by decide) (by decide) n

theorem colonFields_groupsChars (groups : List Nat) :
    colonFields (groupsChars groups) = groups.map (Nat.toDigits 16) := by
  have hfields (hne : groups ≠ []) :
      fieldChars (· = ':') (groupsChars groups) = groups.map (Nat.toDigits 16) := by
    rw [groupsChars_eq]
    apply fieldChars_intercalate (by simpa using hne)
    intro item hi
    obtain ⟨n, -, rfl⟩ := List.mem_map.mp hi
    exact colon_not_mem n
  rw [colonFields]
  split
  · rename_i hempty
    cases groups with
    | nil => rfl
    | cons g rest =>
      have hnil := hfields (by simp)
      rw [List.isEmpty_iff.mp hempty] at hnil
      simp only [fieldChars, List.map_cons, List.cons.injEq] at hnil
      exact absurd hnil.1.symm Nat.toDigits_ne_nil
  · rename_i hempty
    apply hfields
    intro heq
    obtain rfl := heq
    exact hempty rfl

theorem mapM_group? {groups : List Nat} (h : ∀ g ∈ groups, g < 65536) :
    (groups.map (Nat.toDigits 16)).mapM group? = some groups := by
  rw [List.mapM_map]
  refine (Text.mapM_eq_map (g := id) fun g hg => group?_toDigits (h g hg)).trans ?_
  rw [List.map_id]
  rfl

theorem dot_not_mem (n : Nat) : '.' ∉ Nat.toDigits 16 n :=
  not_mem_toDigits (by decide) (by decide) (by decide) n

theorem groups?_map (t : Tolerance) {groups : List Nat} (h : ∀ g ∈ groups, g < 65536) :
    groups? t (groups.map (Nat.toDigits 16)) = some groups := by
  induction groups with
  | nil => rfl
  | cons g rest ih =>
    simp only [List.mem_cons, forall_eq_or_imp] at h
    cases rest with
    | nil => simp [groups?, quad?_of_no_dot t (dot_not_mem g), group?_toDigits h.1]
    | cons g' rest =>
      have := ih h.2
      simp only [List.map_cons] at this ⊢
      rw [groups?, group?_toDigits h.1, this]
      · rfl
      · simp

theorem cutGap_append {s : List Char} (h : ':' ∉ s) (rest : List Char) :
    cutGap (s ++ rest) = (cutGap rest).map fun (before, after) => (s ++ before, after) := by
  induction s with
  | nil => simp
  | cons c s ih =>
    simp only [List.mem_cons, not_or] at h
    rw [List.cons_append, cutGap, ih h.2]
    · rw [Option.map_map]
      rfl
    · intro rest hc
      exact absurd hc.symm h.1

theorem cutGap_colon {c : Char} (hc : c ≠ ':') (rest : List Char) :
    cutGap (':' :: c :: rest) =
      (cutGap (c :: rest)).map fun (before, after) => (':' :: before, after) := by
  rw [cutGap]
  intro rest' hc'
  exact fun h => hc (List.cons.inj h).1

theorem exists_groupsChars_cons (g : Nat) (groups : List Nat) :
    ∃ c s, groupsChars (g :: groups) = c :: s ∧ c ≠ ':' := by
  obtain ⟨c, s, hs⟩ := List.exists_cons_of_ne_nil (Nat.toDigits_ne_nil (n := g) (b := 16))
  have hc : c ≠ ':' := by
    intro heq
    obtain rfl := heq
    exact colon_not_mem g (by rw [hs]; exact List.mem_cons_self)
  cases groups with
  | nil => exact ⟨c, s, hs, hc⟩
  | cons g' rest => exact ⟨c, s ++ ':' :: groupsChars (g' :: rest), by simp [groupsChars, hs], hc⟩

/-- Groups are written without a gap. -/
theorem cutGap_groupsChars (groups : List Nat) (rest : List Char) :
    cutGap (groupsChars groups ++ rest) =
      (cutGap rest).map fun (before, after) => (groupsChars groups ++ before, after) := by
  induction groups with
  | nil => simp [groupsChars]
  | cons g groups ih =>
    cases groups with
    | nil => exact cutGap_append (colon_not_mem g) rest
    | cons g' groups =>
      obtain ⟨c, s, hs, hc⟩ := exists_groupsChars_cons g' groups
      rw [groupsChars, List.append_assoc, cutGap_append (colon_not_mem g)]
      · rw [hs] at ih ⊢
        rw [List.cons_append, List.cons_append, cutGap_colon hc, ← List.cons_append, ih]
        simp [Option.map_map, Function.comp_def]
      · simp

theorem groupsOf_length (n : Nat) : (groupsOf n).length = 8 := rfl

theorem groupsOf_lt (n : Nat) : ∀ g ∈ groupsOf n, g < 65536 := by
  intro g hg
  obtain ⟨i, -, rfl⟩ := List.mem_map.mp hg
  exact Nat.mod_lt _ (by decide)

theorem ofGroups_groupsOf (bits : BitVec 128) : ofGroups (groupsOf bits.toNat) = bits := by
  have h := bits.isLt
  apply BitVec.eq_of_toNat_eq
  simp only [ofGroups, groupsOf, List.range, List.range.loop, List.map_cons, List.map_nil,
    List.foldl_cons, List.foldl_nil, Nat.shiftRight_eq_div_pow, BitVec.toNat_ofNat]
  omega

/-- What counts as the longest row of zeros is a row of zeros. -/
theorem longestZeros_spec (groups : List Nat) (h : 0 < (longestZeros groups).2) :
    zerosAt groups (longestZeros groups).1 = (longestZeros groups).2 := by
  have key (places : List Nat) (best : Nat × Nat)
      (hbest : 0 < best.2 → zerosAt groups best.1 = best.2) :
      let found := places.foldl
        (fun best i => if best.2 < zerosAt groups i then (i, zerosAt groups i) else best) best
      0 < found.2 → zerosAt groups found.1 = found.2 := by
    induction places generalizing best with
    | nil => exact hbest
    | cons i places ih =>
      refine ih _ ?_
      dsimp only
      split
      · exact fun _ => rfl
      · exact hbest
  exact key _ (0, 0) (fun h0 => absurd h0 (by decide)) h

theorem eq_append_zeros (groups : List Nat) (i : Nat) :
    groups = groups.take i ++ List.replicate (zerosAt groups i) 0 ++
      groups.drop (i + zerosAt groups i) := by
  have hzeros : (groups.drop i).takeWhile (· = 0) = List.replicate (zerosAt groups i) 0 := by
    refine List.eq_replicate_of_mem fun g hg => ?_
    simpa using List.all_eq_true.mp List.all_takeWhile g hg
  have hrest : (groups.drop i).dropWhile (· = 0) = groups.drop (i + zerosAt groups i) := by
    rw [← List.drop_drop]
    have := List.takeWhile_append_dropWhile (p := fun g => decide (g = 0)) (l := groups.drop i)
    conv => rhs; rw [← this]
    rw [zerosAt, List.drop_left]
  have := List.takeWhile_append_dropWhile (p := fun g => decide (g = 0)) (l := groups.drop i)
  rw [hzeros, hrest] at this
  rw [List.append_assoc, this, List.take_append_drop]

theorem known_zeros {groups : List Nat} (h : groups.length = 8) (i : Nat) :
    (groups.take i).length + (groups.drop (i + zerosAt groups i)).length =
      8 - zerosAt groups i ∧ zerosAt groups i ≤ 8 := by
  have := congrArg List.length (eq_append_zeros groups i)
  simp only [List.length_append, List.length_replicate, h] at this
  omega

/-- What is written with or without a gap is read as the groups that it was written from. -/
theorem groupsOf?_gap (t : Tolerance) {groups : List Nat} (h : groups.length = 8)
    (hlt : ∀ g ∈ groups, g < 65536) {i : Nat} (hpos : 0 < zerosAt groups i) :
    groupsOf? t (groupsChars (groups.take i) ++ ':' :: ':' ::
      groupsChars (groups.drop (i + zerosAt groups i))) = some groups := by
  obtain ⟨hknown, hle⟩ := known_zeros h i
  have hfront : ((groups.take i).map (Nat.toDigits 16)).mapM group? = some (groups.take i) :=
    mapM_group? fun g hg => hlt g (List.mem_of_mem_take hg)
  have hback : groups? t ((groups.drop (i + zerosAt groups i)).map (Nat.toDigits 16)) =
      some (groups.drop (i + zerosAt groups i)) :=
    groups?_map t fun g hg => hlt g (List.mem_of_mem_drop hg)
  have hzeros : 8 - (8 - zerosAt groups i) = zerosAt groups i := by omega
  rw [groupsOf?, cutGap_groupsChars]
  simp only [cutGap, Option.map_some, List.append_nil, colonFields_groupsChars]
  rw [hfront, hback]
  dsimp only
  rw [hknown, hzeros, ← eq_append_zeros, if_pos]
  simp only [Bool.or_eq_true, decide_eq_true_eq]
  omega

theorem groupsOf?_groups (t : Tolerance) {groups : List Nat} (h : groups.length = 8)
    (hlt : ∀ g ∈ groups, g < 65536) : groupsOf? t (groupsChars groups) = some groups := by
  have hnone := cutGap_groupsChars groups []
  rw [List.append_nil] at hnone
  rw [groupsOf?, hnone]
  simp [cutGap, colonFields_groupsChars, groups?_map t hlt, h]

/-- The characters of which the texts of addresses consist. -/
def alphabet : List Char := "0123456789abcdef.:".toList

theorem toDigits_alphabet {base : Nat} (hb : 1 < base) (hle : base ≤ 16) (n : Nat) :
    ∀ c ∈ Nat.toDigits base n, c ∈ alphabet :=
  forall_mem_toDigits hb (fun d hd =>
    (by decide : ∀ d < 16, Nat.digitChar d ∈ alphabet) d (Nat.lt_of_lt_of_le hd hle)) n

theorem colon_not_mem_quadChars (n : Nat) : ':' ∉ quadChars n := by
  have hcolon (n : Nat) : ':' ∉ Nat.toDigits 10 n :=
    not_mem_toDigits (by decide) (by decide) (by decide) n
  simp [quadChars, hcolon]

/-- An IPv4 address behind `::ffff:`. -/
theorem groupsOf?_mapped (t : Tolerance) {n : Nat} (h : n < UInt32.size) :
    groupsOf? t ("::ffff:".toList ++ quadChars n) =
      some [0, 0, 0, 0, 0, 65535, n / 65536, n % 65536] := by
  have hfields : fieldChars (· = ':') ("ffff:".toList ++ quadChars n) =
      ["ffff".toList, quadChars n] := by
    have hclean : fieldChars (· = ':') (quadChars n) = [quadChars n] := by
      refine fieldChars_of_no_sep fun c hc => decide_eq_false ?_
      intro heq
      obtain rfl := heq
      exact colon_not_mem_quadChars n hc
    have hsplit : fieldChars (· = ':') ("ffff".toList ++ ':' :: quadChars n) = _ :=
      fieldChars_append_sep rfl _ _
    rw [hclean] at hsplit
    exact hsplit
  have hback : groups? t (colonFields ("ffff:".toList ++ quadChars n)) =
      some [65535, n / 65536, n % 65536] := by
    rw [colonFields, if_neg (by simp), hfields, groups?, groups?, quad?_quadChars t h]
    · rfl
    · simp
  have hcut : cutGap ("::ffff:".toList ++ quadChars n) =
      some ([], "ffff:".toList ++ quadChars n) := rfl
  rw [groupsOf?, hcut]
  dsimp only
  rw [hback]
  rfl

theorem quad?_mapped (t : Tolerance) (n : Nat) :
    quad? t ("::ffff:".toList ++ quadChars n) = none := by
  have hdot (n : Nat) : '.' ∉ Nat.toDigits 10 n :=
    not_mem_toDigits (by decide) (by decide) (by decide) n
  have hjoined : "::ffff:".toList ++ quadChars n = ['.'].intercalate
      ["::ffff:".toList ++ Nat.toDigits 10 (n / 16777216 % 256),
        Nat.toDigits 10 (n / 65536 % 256), Nat.toDigits 10 (n / 256 % 256),
        Nat.toDigits 10 (n % 256)] := by
    simp only [quadChars_eq, List.intercalate_cons_cons, List.append_assoc]
  have hlong : octet? t ("::ffff:".toList ++ Nat.toDigits 10 (n / 16777216 % 256)) = none := by
    rw [octet?, if_pos]
    simp
  rw [quad?, hjoined, fieldChars_intercalate (by simp)]
  · dsimp only
    rw [hlong]
  · simp [hdot]

theorem ofGroups_mapped (n : Nat) :
    ofGroups [0, 0, 0, 0, 0, 65535, n / 65536, n % 65536] =
      BitVec.ofNat 128 (65535 * UInt32.size + n) := by
  simp only [ofGroups, List.foldl_cons, List.foldl_nil]
  simp only [UInt32.size]
  refine congrArg (BitVec.ofNat 128) ?_
  omega

theorem dot_not_mem_groupsChars (groups : List Nat) : '.' ∉ groupsChars groups := by
  induction groups with
  | nil => simp [groupsChars]
  | cons g rest ih =>
    cases rest with
    | nil => exact dot_not_mem g
    | cons g' rest => simp [groupsChars, dot_not_mem g, ih]

theorem v6Chars_eq (n : Nat) :
    v6Chars n =
      if n / UInt32.size = 0xFFFF then "::ffff:".toList ++ quadChars (n % UInt32.size)
      else if 1 < (longestZeros (groupsOf n)).2 then
        groupsChars ((groupsOf n).take (longestZeros (groupsOf n)).1) ++ ':' :: ':' ::
          groupsChars ((groupsOf n).drop
            ((longestZeros (groupsOf n)).1 + (longestZeros (groupsOf n)).2))
      else groupsChars (groupsOf n) := by
  have hgap (s rest : List Char) : s ++ "::".toList ++ rest = s ++ ':' :: ':' :: rest := by simp
  simp only [v6Chars, hgap]

theorem parseChars?_v6Chars (t : Tolerance) (bits : BitVec 128) :
    parseChars? t (v6Chars bits.toNat) = some (.v6 bits) := by
  rw [v6Chars_eq]
  split
  · rename_i hmapped
    have hlow : bits.toNat % UInt32.size < UInt32.size := Nat.mod_lt _ (by decide)
    have hbits := Nat.div_add_mod' bits.toNat UInt32.size
    rw [hmapped] at hbits
    rw [parseChars?, quad?_mapped, groupsOf?_mapped t hlow]
    dsimp only [Option.map_some]
    rw [ofGroups_mapped, hbits, BitVec.ofNat_toNat, BitVec.setWidth_eq]
  · have hgroups (s : List Char) (hs : '.' ∉ s)
        (hread : groupsOf? t s = some (groupsOf bits.toNat)) :
        parseChars? t s = some (.v6 bits) := by
      rw [parseChars?, quad?_of_no_dot t hs, hread]
      dsimp only [Option.map_some]
      rw [ofGroups_groupsOf]
    have hlen := groupsOf_length bits.toNat
    have hlt := groupsOf_lt bits.toNat
    split
    · rename_i hlong
      have hzeros := longestZeros_spec (groupsOf bits.toNat) (Nat.lt_of_succ_lt hlong)
      rw [← hzeros] at hlong ⊢
      refine hgroups _ ?_ ?_
      · simp [dot_not_mem_groupsChars]
      · exact groupsOf?_gap t hlen hlt (Nat.lt_of_succ_lt hlong)
    · exact hgroups _ (dot_not_mem_groupsChars _) (groupsOf?_groups t hlen hlt)

theorem parseChars?_chars (t : Tolerance) (a : Address) : parseChars? t a.chars = some a := by
  cases a with
  | v4 bits =>
    rw [chars, parseChars?, quad?_quadChars t bits.isLt]
    dsimp only
    rw [BitVec.ofNat_toNat, BitVec.setWidth_eq]
  | v6 bits => exact parseChars?_v6Chars t bits

@[simp] theorem toList_text (a : Address) : a.text.toList = a.chars := String.toList_ofList

@[simp] theorem parse?_text (a : Address) : parse? a.text = some a := by
  rw [parse?, toList_text]
  exact parseChars?_chars strict a

theorem quadChars_alphabet (n : Nat) : ∀ c ∈ quadChars n, c ∈ alphabet := by
  have hdigits (n : Nat) : ∀ c ∈ Nat.toDigits 10 n, c ∈ alphabet :=
    toDigits_alphabet (by decide) (by decide) n
  have hdot : '.' ∈ alphabet := by decide
  intro c hc
  simp only [quadChars, List.append_assoc, List.mem_append, List.mem_cons, List.cons_append] at hc
  rcases hc with hc | rfl | hc | rfl | hc | rfl | hc
  all_goals first | exact hdot | exact hdigits _ c hc

theorem groupsChars_alphabet (groups : List Nat) : ∀ c ∈ groupsChars groups, c ∈ alphabet := by
  rw [groupsChars_eq]
  refine forall_mem_intercalate (List.all_iff_forall_prop.mp (by decide)) fun item hi => ?_
  obtain ⟨g, -, rfl⟩ := List.mem_map.mp hi
  exact toDigits_alphabet (by decide) (by decide) g

theorem chars_alphabet (a : Address) : ∀ c ∈ a.chars, c ∈ alphabet := by
  cases a with
  | v4 bits => exact quadChars_alphabet bits.toNat
  | v6 bits =>
    intro c hc
    rw [chars, v6Chars_eq] at hc
    split at hc
    · rcases List.mem_append.mp hc with hc | hc
      · have hmapped : ∀ c ∈ "::ffff:".toList, c ∈ alphabet :=
          List.all_iff_forall_prop.mp (by decide)
        exact hmapped c hc
      · exact quadChars_alphabet _ c hc
    · split at hc
      · simp only [List.mem_append, List.mem_cons] at hc
        rcases hc with hc | rfl | rfl | hc
        · exact groupsChars_alphabet _ c hc
        · decide
        · decide
        · exact groupsChars_alphabet _ c hc
      · exact groupsChars_alphabet _ c hc

/-- A text is not empty, as the empty text is no address. -/
theorem chars_ne_nil (a : Address) : a.chars ≠ [] := by
  intro h
  have := parseChars?_chars strict a
  rw [h] at this
  simp [show parseChars? strict [] = none by decide] at this

end VipSteering.Address
