import Multiview.Proofs.Memory.Device
import Multiview.Proofs.Memory.Frames

/-!
What an allocator holds. A new allocator that has served one request is furnished: it holds that one
response, whose frames are either the slices of its textures or frames on the host. Once the response is
freed and the allocator closed it is vacant, and its textures are released.
-/

namespace Multiview

open Outcome Platform

/-- A request was served by creating the textures that `q` tells, or failed and left none behind. -/
def Provided {α β : Type} (p : Platform) (q : α → β → List TextureHandle → Prop)
    (x : Except AllocError α × β × Platform) : Prop :=
  match x.1 with
  | .error _ => p.Gains x.2.2 []
  | .ok a => ∃ textures, p.Gains x.2.2 textures ∧ q a x.2.1 textures

/-- Settings and request are for the same kind of memory. -/
structure Suited (memory : MemoryKind) (settings : Option TextureSettings) (r : Request) : Prop where
  settings : settings.isSome = (memory == .video)
  request : r.memType.intersects .videoMemory = (memory == .video)

/-- What an element contributes goes when one takes its place that contributes nothing. -/
theorem flatMap_set_perm {α β : Type} {f : α → List β} {l : List α} {i : Nat} {a b : α}
    (ha : l[i]? = some a) (hb : f b = []) :
    (l.flatMap f).Perm (f a ++ (l.set i b).flatMap f) := by
  induction l generalizing i with
  | nil => cases ha
  | cons c l ih =>
    cases i with
    | zero =>
      cases ha
      rw [List.set_cons_zero, List.flatMap_cons, List.flatMap_cons, hb, List.nil_append]
    | succ i =>
      rw [List.set_cons_succ, List.flatMap_cons, List.flatMap_cons, ← List.append_assoc]
      refine ((ih ha).append_left (f c)).trans ?_
      rw [← List.append_assoc]
      exact List.perm_append_comm.append_right _

/-! ## Responses -/

/-- A response is recognised by its frames. -/
theorem Response.matches_of_mids {held given : Response} (hp : held.mids ≠ [])
    (h : given.mids = held.mids) : held.matches given = true := by
  simp [Response.matches, h, hp]

namespace Allocator

variable {β : Type}

/-- The responses that have not been freed. -/
def held (a : Allocator β) : List Response := a.external ++ a.oneShot

variable [FrameStore β] {a : Allocator β} {p : Platform}

/-- An allocator that holds nothing holds the response to its first request. -/
theorem allocate_provided (h : a.held = []) (r : Request)
    {q : List MemId → β → List TextureHandle → Prop}
    (hs : Yields (FrameStore.allocate r a.store p) (Provided p q)) :
    Yields (a.allocate r p) (Provided p fun response a' textures =>
      r.suggested ≠ 0 ∧ a'.held = [response] ∧ q response.mids a'.store textures) := by
  obtain ⟨hexternal, honeShot⟩ := List.append_eq_nil_iff.mp h
  rcases allocate_split r a p with ⟨e, heq⟩ | ⟨x, hx, -, -⟩ | ⟨hsome, -, heq⟩
  · rw [heq]
    exact .ok (Gains.refl p)
  · rw [hexternal] at hx
    cases hx
  · rw [heq]
    refine .map (hs.mono ?_)
    rintro ⟨answer, store, p'⟩ hq
    cases answer with
    | error e => exact hq
    | ok mids =>
      obtain ⟨textures, hg, hq⟩ := hq
      unfold takeOver
      dsimp only
      split
      · refine ⟨textures, hg, hsome, ?_, hq⟩
        simp [held, hexternal, honeShot]
      · refine ⟨textures, hg, hsome, ?_, hq⟩
        simp [held, hexternal, honeShot]

/-- The only response that is held goes back to the store. -/
theorem free_held {response given : Response} (h : a.held = [response])
    (hm : response.matches given = true) (p : Platform) :
    ∃ a', a.free given p =
        ((FrameStore.release response.mids a.store p).1, a',
          (FrameStore.release response.mids a.store p).2.2) ∧
      a'.store = (FrameStore.release response.mids a.store p).2.1 ∧ a'.held = [] := by
  have hfind : [response].find? (·.matches given) = some response := List.find?_cons_of_pos hm
  have herase : [response].eraseP (·.matches given) = [] := List.eraseP_cons_of_pos hm
  unfold held at h
  unfold free
  rcases List.append_eq_singleton_iff.mp h with ⟨hexternal, honeShot⟩ | ⟨hexternal, honeShot⟩
  · rw [hexternal, honeShot, List.find?_nil, hfind, herase]
    exact ⟨_, rfl, rfl, rfl⟩
  · rw [hexternal, honeShot, hfind, herase]
    exact ⟨_, rfl, rfl, rfl⟩

/-- With nothing held only the store is closed. -/
theorem close_held (h : a.held = []) (p : Platform) :
    (a.close p).2.1 = ⟨(FrameStore.close a.store p).2.1, [], []⟩ ∧
      (a.close p).2.2 = (FrameStore.close a.store p).2.2 ∧
      ((FrameStore.close a.store p).1 = .ok () → (a.close p).1 = .ok ()) := by
  obtain ⟨hexternal, honeShot⟩ := List.append_eq_nil_iff.mp h
  unfold close
  rw [hexternal, honeShot]
  refine ⟨rfl, rfl, fun hok => ?_⟩
  simp only [List.append_nil, releaseAll, hok]

end Allocator

/-! ## Textures -/

namespace TextureResource

variable {y : TextureResource} {start : Nat} {mid mid' : MemId} {x : NativeHandle}

/-- The frames are dealt out in turn, beginning with the first texture. -/
theorem handle_eq (h : y.mids = (List.range' start y.mids.length).map MemId.mk)
    (hm : mid ∈ y.mids) :
    start ≤ mid.value ∧ mid.value - start < y.mids.length ∧
      y.handle mid = (y.textures[(mid.value - start) % y.textures.length]?).map
        (⟨·, (mid.value - start) / y.textures.length⟩) := by
  rw [h] at hm
  obtain ⟨hlow, hhigh⟩ := mem_consecutive.mp hm
  have hlt : mid.value - start < y.mids.length := by omega
  have hhead : y.mids.head? = some ⟨start⟩ := by
    rw [h, List.head?_map, List.head?_range', if_neg (by omega)]
    rfl
  have hfirst : ¬ mid.value < start := by omega
  have hlast : ¬ y.mids.length ≤ mid.value - start := by omega
  refine ⟨hlow, hlt, ?_⟩
  cases hslot : y.textures[(mid.value - start) % y.textures.length]? <;>
    simp [handle, hhead, hfirst, hlast, hslot]

/-- No two frames are the same slice of the same texture. -/
theorem handle_inj (h : y.mids = (List.range' start y.mids.length).map MemId.mk)
    (hn : y.textures.Nodup) (hm : mid ∈ y.mids) (hm' : mid' ∈ y.mids)
    (hx : y.handle mid = some x) (hx' : y.handle mid' = some x) : mid = mid' := by
  obtain ⟨hlow, -, heq⟩ := handle_eq h hm
  obtain ⟨hlow', -, heq'⟩ := handle_eq h hm'
  rw [heq, Option.map_eq_some_iff] at hx
  rw [heq', Option.map_eq_some_iff] at hx'
  obtain ⟨t, ht, rfl⟩ := hx
  obtain ⟨t', ht', hsame⟩ := hx'
  obtain ⟨rfl, hdiv⟩ := NativeHandle.mk.inj hsame
  have hmod : (mid.value - start) % y.textures.length =
      (mid'.value - start) % y.textures.length := by
    obtain ⟨hlt, hi⟩ := List.getElem?_eq_some_iff.mp ht
    obtain ⟨hlt', hi'⟩ := List.getElem?_eq_some_iff.mp ht'
    exact (List.Nodup.getElem_inj_iff hn).mp (hi.trans hi'.symm)
  have hoffset : mid.value - start = mid'.value - start := by
    rw [← Nat.div_add_mod (mid.value - start) y.textures.length, ← hdiv, hmod, Nat.div_add_mod]
  have hvalue : mid.value = mid'.value := by omega
  exact congrArg MemId.mk hvalue

end TextureResource

namespace TextureFrames

/-- The resource that owns a frame tells where it is. -/
theorem handle_eq_ok_iff {s : TextureFrames} {mid : MemId} {x : NativeHandle} :
    s.handle mid = .ok x ↔ ∃ i y, s.owner? mid = some (i, y) ∧ y.handle mid = some x := by
  unfold TextureFrames.handle
  cases ho : s.owner? mid with
  | none => simp
  | some owner =>
    obtain ⟨i, y⟩ := owner
    cases hh : y.handle mid <;> simp [hh]

/-- The frames are slices of textures, dealt out in turn. -/
structure Stocks (mids : List MemId) (textures : List TextureHandle) (s : TextureFrames) :
    Prop where
  numbered : mids = (List.range' 1 mids.length).map MemId.mk
  present : mids ≠ [] → textures ≠ []
  resources : s.resources = [⟨mids, textures, true⟩]
  owners : s.owners = Array.replicate mids.length 0

theorem allocate_provided {s : TextureFrames} (hr : s.resources = []) (ho : s.owners = #[])
    (r : Request) (p : Platform) :
    Provided p (fun mids s textures =>
      mids.length = r.suggested.toNat ∧ Stocks mids textures s) (s.allocate r p) := by
  unfold allocate
  split
  · exact Gains.refl p
  · rename_i settings hsettings
    split
    · exact Gains.refl p
    · dsimp only
      generalize hdesc : describe settings.singleTexture r = desc
      have hnone : p.Gains p [].reverse := Gains.refl p
      have hgains := gains_createTextures desc (r.suggested.toNat / desc.slices) hnone
      have hlength : ∀ textures, (createTextures desc (r.suggested.toNat / desc.slices) [] p).1 =
          some textures → textures.length = [].length + r.suggested.toNat / desc.slices :=
        fun textures => length_createTextures desc _ [] p
      have hid : s.lastId = 0 := by
        unfold lastId
        rw [hr]
        rfl
      split
      · rename_i heq
        rw [heq] at hgains
        exact hgains
      · rename_i textures p' heq
        rw [heq] at hgains hlength
        have hcount := hlength textures rfl
        refine ⟨textures, hgains, by simp, ?_, fun hne hnil => ?_, ?_, ?_⟩
        · simp [hid]
        · rw [hnil, List.length_nil, Nat.zero_add] at hcount
          have hpos : r.suggested.toNat ≠ 0 := fun hz => hne (by simp [hz])
          have hslices : desc.slices ≤ r.suggested.toNat ∧ 0 < desc.slices := by
            rw [← hdesc, describe]
            dsimp only
            split <;> omega
          exact absurd hcount.symm (Nat.ne_of_gt (Nat.div_pos hslices.1 hslices.2))
        · rw [hr]
          rfl
        · rw [hr, ho]
          simp

section Stocks

variable {mids : List MemId} {textures : List TextureHandle} {s : TextureFrames}

theorem Stocks.bounds (h : Stocks mids textures s) {mid : MemId} (hm : mid ∈ mids) :
    1 ≤ mid.value ∧ mid.value ≤ mids.length := by
  rw [h.numbered] at hm
  obtain ⟨i, hi, rfl⟩ := List.mem_map.mp hm
  have hi := List.mem_range'_1.mp hi
  dsimp only
  omega

theorem Stocks.owner? (h : Stocks mids textures s) {mid : MemId} (hm : mid ∈ mids) :
    s.owner? mid = some (0, ⟨mids, textures, true⟩) := by
  obtain ⟨hpos, hle⟩ := h.bounds hm
  have hzero : mid.value ≠ 0 := Nat.ne_of_gt hpos
  have hlt : mid.value - 1 < mids.length := by omega
  unfold TextureFrames.owner?
  rw [h.owners, h.resources]
  simp [hzero, hlt]

theorem Stocks.handle (h : Stocks mids textures s) {mid : MemId} (hm : mid ∈ mids) :
    ∃ texture, textures[(mid.value - 1) % textures.length]? = some texture ∧
      s.handle mid = .ok ⟨texture, (mid.value - 1) / textures.length⟩ := by
  have hpos := List.length_pos_of_ne_nil (h.present (List.ne_nil_of_mem hm))
  have hmod := Nat.mod_lt (mid.value - 1) hpos
  obtain ⟨-, -, heq⟩ := TextureResource.handle_eq (y := ⟨mids, textures, true⟩) h.numbered hm
  refine ⟨_, List.getElem?_eq_getElem hmod, handle_eq_ok_iff.mpr ⟨0, _, h.owner? hm, ?_⟩⟩
  rw [heq, List.getElem?_eq_getElem hmod]
  rfl

/-- No two frames are the same slice of the same texture. -/
theorem Stocks.handle_injective (h : Stocks mids textures s) (hn : textures.Nodup)
    {mid mid' : MemId} (hm : mid ∈ mids) (hm' : mid' ∈ mids)
    (heq : s.handle mid = s.handle mid') : mid = mid' := by
  obtain ⟨texture, -, hx⟩ := h.handle hm
  obtain ⟨i, y, hi, hy⟩ := handle_eq_ok_iff.mp hx
  obtain ⟨j, z, hj, hz⟩ := handle_eq_ok_iff.mp (heq ▸ hx)
  cases (h.owner? hm).symm.trans hi
  cases (h.owner? hm').symm.trans hj
  exact TextureResource.handle_inj h.numbered hn hm hm' hy hz

/-- The last resource goes with its textures. -/
theorem Stocks.release (h : Stocks mids textures s) (hne : mids ≠ []) (p : Platform) :
    s.release mids p =
      (.ok (), { s with resources := [], owners := #[] }, p.releaseTextures textures) := by
  cases mids with
  | nil => exact absurd rfl hne
  | cons first rest =>
    unfold TextureFrames.release
    dsimp only
    rw [h.owner? List.mem_cons_self]
    simp [h.resources, tidy]

end Stocks

end TextureFrames

/-! ## Host memory -/

namespace HostFrames

/-- The frames on the host are these and no others. -/
def Stocks (mids : List MemId) (s : HostFrames) : Prop :=
  ∀ k, (s.frames[k]?).isSome = true ↔ k ∈ mids.map (·.value)

theorem stocks_nil : Stocks [] ({} : HostFrames) := fun k => by simp

theorem allocate_provided {s : HostFrames} (h : s.Stocks []) (r : Request) (p : Platform) :
    Yields (s.allocate r p) (Provided p fun mids s textures =>
      mids.length = r.suggested.toNat ∧ s.Stocks mids ∧ textures = []) := by
  refine (s.allocate_cases r p).yields.mono ?_
  rintro x (⟨e, n, s', -, rfl⟩ | ⟨f, -, rfl⟩)
  · exact gains_asked n p
  · refine ⟨[], gains_asked _ p, s.length_nextIds _, fun k => ?_, rfl⟩
    rw [getElem?_stocked]
    split
    · rename_i hk
      exact iff_of_true rfl hk
    · rename_i hk
      exact iff_of_false (fun hs => by cases (h k).mp hs) hk

theorem Stocks.release {mids : List MemId} {s : HostFrames} (h : s.Stocks mids) :
    (s.release mids).Stocks [] := by
  intro k
  rw [getElem?_release]
  split
  · simp
  · rename_i hk
    refine iff_of_false (fun hs => hk ((h k).mp hs)) (by simp)

/-- Filling a frame leaves all frames where they are. -/
theorem fill_stocks (mid : MemId) (start stop : Nat) (value : UInt8) (s : HostFrames) :
    Yields (s.fill mid start stop value) fun s' => ∀ mids, s.Stocks mids → s'.Stocks mids := by
  unfold fill
  split
  · exact .ok fun _ h => h
  · rename_i f hf
    refine (f.buffer.fill_sound start stop value).yields.bind fun buffer _ => .pure ?_
    intro mids h k
    rw [← h k, Std.TreeMap.getElem?_insert]
    split
    · rename_i heq
      have heq : mid.value = k := by simpa using heq
      rw [← heq, hf]
      rfl
    · rfl

end HostFrames

/-! ## Either kind of memory -/

namespace MixedFrames

/-- The textures of the allocated resources. -/
def handles (s : MixedFrames) : List TextureHandle :=
  (s.textures.map fun a => a.store.resources.flatMap (·.textures)).getD []

/-- The frames are all in textures. -/
structure InTextures (mids : List MemId) (textures : List TextureHandle) (s : MixedFrames) :
    Prop where
  origins : ∀ mid ∈ mids, s.origin mid = .video
  textures : ∃ id a, s.textures = some a ∧ a.held = [⟨id, mids⟩] ∧ a.store.Stocks mids textures
  host : ∀ a, s.host = some a → a.held = [] ∧ a.store.Stocks []

/-- The frames are all on the host. -/
structure OnHost (mids : List MemId) (s : MixedFrames) : Prop where
  origins : ∀ mid ∈ mids, s.origin mid = .system
  textures : s.textures = none
  host : ∃ id a, s.host = some a ∧ a.held = [⟨id, mids⟩] ∧ a.store.Stocks mids

/-- There are no frames. -/
structure Vacant (s : MixedFrames) : Prop where
  textures : ∀ a, s.textures = some a → a.held = [] ∧ a.store.resources = []
  host : ∀ a, s.host = some a → a.held = [] ∧ a.store.Stocks []

/-- The frames are all in one kind of memory. -/
def Stocks : MemoryKind → List MemId → List TextureHandle → MixedFrames → Prop
  | .video, mids, textures, s => s.InTextures mids textures
  | .system, mids, textures, s => s.OnHost mids ∧ textures = []

variable {s : MixedFrames} {mids : List MemId} {textures : List TextureHandle}

theorem Stocks.handles {memory : MemoryKind} (h : s.Stocks memory mids textures) :
    s.handles = textures := by
  unfold MixedFrames.handles
  cases memory with
  | system =>
    obtain ⟨hhost, rfl⟩ := h
    rw [hhost.textures]
    rfl
  | video =>
    obtain ⟨id, a, ha, _, hstocks⟩ := h.textures
    rw [ha, Option.map_some, Option.getD_some, hstocks.resources, List.flatMap_singleton]

theorem Vacant.handles (h : s.Vacant) : s.handles = [] := by
  unfold MixedFrames.handles
  cases ha : s.textures with
  | none => rfl
  | some a =>
    rw [Option.map_some, Option.getD_some, (h.textures a ha).2]
    rfl

theorem origin_remember (kind : MemoryKind) (s : MixedFrames) {mid : MemId} (hm : mid ∈ mids) :
    (s.remember mids kind).origin mid = kind := by
  unfold origin remember
  dsimp only
  rw [getElem?_foldl_insert, if_pos (List.mem_map_of_mem hm)]
  rfl

/-- A new store takes the frames from the kind of memory that the request is for. -/
theorem allocate_provided {settings : Option TextureSettings} {memory : MemoryKind} {r : Request}
    (h : Suited memory settings r) (p : Platform) :
    Yields (allocate r (init settings {}) p) (Provided p fun mids s textures =>
      mids.length = r.suggested.toNat ∧ s.Stocks memory mids textures) := by
  have hs := h.settings
  unfold allocate
  rw [h.request]
  cases memory with
  | video =>
    obtain ⟨settings, rfl⟩ := Option.isSome_iff_exists.mp hs
    have hfresh : Yields (FrameStore.allocate r ({ settings := some settings } : TextureFrames) p)
        (Provided p fun mids s textures =>
          mids.length = r.suggested.toNat ∧ TextureFrames.Stocks mids textures s) :=
      .ok (TextureFrames.allocate_provided rfl rfl r p)
    refine (Allocator.allocate_provided (a := ⟨_, [], []⟩) rfl r hfresh).bind ?_
    rintro ⟨answer, a, p'⟩ hq
    cases answer with
    | error e => exact .ok hq
    | ok response =>
      obtain ⟨textures, hg, _, hheld, hlen, hstocks⟩ := hq
      refine .ok ⟨textures, hg, hlen, fun mid hm => origin_remember .video _ hm, ?_, ?_⟩
      · exact ⟨response.allocId, a, rfl, hheld, hstocks⟩
      · intro host hh
        cases hh
        exact ⟨rfl, HostFrames.stocks_nil⟩
  | system =>
    have hnone : settings = none := Option.not_isSome_iff_eq_none.mp (by rw [hs]; exact nofun)
    subst hnone
    have hfresh : Yields (FrameStore.allocate r ({} : HostFrames) p)
        (Provided p fun mids s textures =>
          mids.length = r.suggested.toNat ∧ HostFrames.Stocks mids s ∧ textures = []) :=
      HostFrames.allocate_provided HostFrames.stocks_nil r p
    refine (Allocator.allocate_provided (a := ⟨_, [], []⟩) rfl r hfresh).bind ?_
    rintro ⟨answer, a, p'⟩ hq
    cases answer with
    | error e => exact .ok hq
    | ok response =>
      obtain ⟨textures, hg, _, hheld, hlen, hstocks, hnone⟩ := hq
      refine .ok ⟨textures, hg, hlen, ⟨fun mid hm => origin_remember .system _ hm, rfl, ?_⟩, hnone⟩
      exact ⟨response.allocId, a, rfl, hheld, hstocks⟩

/-- Frames go back to where they came from, and their textures are released. -/
theorem Stocks.release {memory : MemoryKind} (h : s.Stocks memory mids textures) (hne : mids ≠ [])
    (p : Platform) :
    ∃ s', s.release mids p = (.ok (), s', p.releaseTextures textures) ∧ s'.Vacant := by
  cases mids with
  | nil => exact absurd rfl hne
  | cons first rest =>
    have hmatches : ∀ id, (⟨id, first :: rest⟩ : Response).matches ⟨0, first :: rest⟩ = true :=
      fun id => Response.matches_of_mids hne rfl
    unfold MixedFrames.release
    dsimp only
    cases memory with
    | video =>
      obtain ⟨id, a, ha, hheld, hstocks⟩ := h.textures
      obtain ⟨a', hfree, hstore, hheld'⟩ := Allocator.free_held hheld (hmatches id) p
      have hrelease : FrameStore.release (first :: rest) a.store p = _ := hstocks.release hne p
      dsimp only at hfree hstore
      rw [hrelease] at hfree hstore
      rw [h.origins first List.mem_cons_self, ha]
      dsimp only
      rw [hfree]
      refine ⟨_, rfl, fun b hb => ?_, h.host⟩
      cases hb
      exact ⟨hheld', by rw [hstore]⟩
    | system =>
      obtain ⟨hhost, rfl⟩ := h
      obtain ⟨id, a, ha, hheld, hstocks⟩ := hhost.host
      obtain ⟨a', hfree, hstore, hheld'⟩ := Allocator.free_held hheld (hmatches id) p
      rw [hhost.origins first List.mem_cons_self, ha]
      dsimp only
      rw [hfree]
      refine ⟨_, rfl, fun b hb => ?_, fun b hb => ?_⟩
      · have hnone : some b = none := hb.symm.trans hhost.textures
        cases hnone
      · cases hb
        refine ⟨hheld', ?_⟩
        rw [hstore]
        exact hstocks.release

/-- Nothing is left to be released when a store without frames is closed. -/
theorem Vacant.close (h : s.Vacant) (p : Platform) :
    (s.close p).2.1.Vacant ∧ (s.close p).2.2 = p := by
  have htextures : (s.closeTextures p).1 = .ok () ∧ (s.closeTextures p).2.1.Vacant ∧
      (s.closeTextures p).2.2 = p := by
    unfold closeTextures
    cases ha : s.textures with
    | none => exact ⟨rfl, h, rfl⟩
    | some a =>
      obtain ⟨hheld, hempty⟩ := h.textures a ha
      obtain ⟨hclosed, hplatform, hok⟩ := Allocator.close_held hheld p
      refine ⟨hok rfl, ⟨fun b hb => ?_, h.host⟩, hplatform.trans ?_⟩
      · rw [← Option.some.inj hb, hclosed]
        exact ⟨rfl, rfl⟩
      · change p.releaseTextures _ = p
        rw [hempty]
        rfl
  have hhost : ∀ (s : MixedFrames) (p : Platform), s.Vacant →
      (s.closeHost p).2.1.Vacant ∧ (s.closeHost p).2.2 = p := by
    intro s p h
    unfold closeHost
    cases ha : s.host with
    | none => exact ⟨h, rfl⟩
    | some a =>
      obtain ⟨hheld, hempty⟩ := h.host a ha
      obtain ⟨hclosed, hplatform, _⟩ := Allocator.close_held hheld p
      refine ⟨⟨h.textures, fun b hb => ?_⟩, hplatform⟩
      rw [← Option.some.inj hb, hclosed]
      exact ⟨rfl, hempty⟩
  obtain ⟨hok, hvacant, hplatform⟩ := htextures
  have hrest := hhost _ (s.closeTextures p).2.2 hvacant
  unfold MixedFrames.close
  split
  · rename_i heq
    rw [heq] at hok
    cases hok
  · rename_i s' p' heq
    rw [heq] at hrest hplatform
    split
    · rename_i heq'
      rw [heq'] at hrest
      exact ⟨hrest.1, hrest.2.trans hplatform⟩
    · rename_i heq'
      rw [heq'] at hrest
      exact ⟨⟨hrest.1.textures, hrest.1.host⟩, hrest.2.trans hplatform⟩

/-- What is written in frames on the host does not change which frames there are. -/
structure Alike (s s' : MixedFrames) : Prop where
  handles : s'.handles = s.handles
  vacant : s.Vacant → s'.Vacant
  stocks : ∀ memory mids textures, s.Stocks memory mids textures → s'.Stocks memory mids textures

theorem Alike.refl (s : MixedFrames) : Alike s s := ⟨rfl, id, fun _ _ _ h => h⟩

theorem fill_alike (mid : MemId) (start stop : Nat) (value : UInt8) (s : MixedFrames) :
    Yields (s.fill mid start stop value) (Alike s) := by
  unfold fill
  split
  · rename_i host _ hhost
    have hfill : Yields (host.fill mid start stop value) fun host' =>
        host'.held = host.held ∧ ∀ mids, host.store.Stocks mids → host'.store.Stocks mids :=
      (HostFrames.fill_stocks mid start stop value host.store).bind fun _ hs => .pure ⟨rfl, hs⟩
    refine hfill.bind fun host' ⟨hheld, hstocks⟩ => .pure ⟨rfl, fun h => ?_, ?_⟩
    · refine ⟨h.textures, fun a ha => ?_⟩
      cases ha
      obtain ⟨hempty, hnone⟩ := h.host host hhost
      exact ⟨hheld.trans hempty, hstocks [] hnone⟩
    · intro memory mids textures h
      cases memory with
      | video =>
        refine ⟨h.origins, h.textures, fun a ha => ?_⟩
        cases ha
        obtain ⟨hempty, hnone⟩ := h.host host hhost
        exact ⟨hheld.trans hempty, hstocks [] hnone⟩
      | system =>
        obtain ⟨h, hnone⟩ := h
        obtain ⟨id, a, ha, hone, hall⟩ := h.host
        cases Option.some.inj (hhost.symm.trans ha)
        exact ⟨⟨h.origins, h.textures, id, host', rfl, hheld.trans hone, hstocks mids hall⟩, hnone⟩
  · exact .ok (.refl s)

end MixedFrames

namespace MixedAllocator

/-- The textures that the frames are in. -/
def handles (a : MixedAllocator) : List TextureHandle := a.store.handles

/-- The allocator holds one response, with frames in one kind of memory. -/
structure Furnished (memory : MemoryKind) (response : Response) (a : MixedAllocator) : Prop where
  held : a.held = [response]
  present : response.mids ≠ []
  stocks : a.store.Stocks memory response.mids a.handles

/-- The allocator holds nothing. -/
structure Vacant (a : MixedAllocator) : Prop where
  held : a.held = []
  store : a.store.Vacant

variable {a a' : MixedAllocator} {memory : MemoryKind} {response : Response} {p : Platform}

theorem Vacant.handles (h : a.Vacant) : a.handles = [] := h.store.handles

/-- A new allocator that served a request is furnished for it. -/
theorem allocate_furnished {settings : Option TextureSettings} {r : Request}
    (h : Suited memory settings r) (p : Platform) :
    Yields ((empty.init settings).allocate r p) (Provided p fun response a textures =>
      Furnished memory response a ∧ textures = handles a) := by
  refine (Allocator.allocate_provided rfl r (MixedFrames.allocate_provided h p)).mono ?_
  rintro ⟨answer, a, p'⟩ hq
  cases answer with
  | error e => exact hq
  | ok response =>
    obtain ⟨textures, hg, hsome, hheld, hlen, hstocks⟩ := hq
    have hhandles : handles a = textures := hstocks.handles
    refine ⟨textures, hg, ⟨hheld, fun hnil => hsome ?_, hhandles.symm ▸ hstocks⟩, hhandles.symm⟩
    rw [hnil, List.length_nil] at hlen
    exact UInt16.toNat_inj.mp hlen.symm

/-- The frame is among those on the host. -/
def Hosts (mid : MemId) (a : MixedAllocator) : Prop :=
  ∃ host, a.store.host = some host ∧ (host.store.frames[mid.value]?).isSome = true

theorem Vacant.not_hosts (h : a.Vacant) (mid : MemId) : ¬ Hosts mid a := by
  rintro ⟨host, hhost, hsome⟩
  have hnone := ((h.store.host host hhost).2 mid.value).mp hsome
  cases hnone

theorem mem_map_value {mid : MemId} {mids : List MemId} :
    mid.value ∈ mids.map (·.value) ↔ mid ∈ mids := by
  refine ⟨fun h => ?_, List.mem_map_of_mem⟩
  obtain ⟨mid', hmem, heq⟩ := List.mem_map.mp h
  have hsame : mid' = mid := congrArg MemId.mk heq
  exact hsame ▸ hmem

/-- The frames on the host are those of the response, if it is for system memory. -/
theorem Furnished.hosts_iff (h : a.Furnished memory response) (mid : MemId) :
    Hosts mid a ↔ memory = .system ∧ mid ∈ response.mids := by
  cases memory with
  | video =>
    refine iff_of_false ?_ (fun hm => by cases hm.1)
    rintro ⟨host, hhost, hsome⟩
    cases ((h.stocks.host host hhost).2 mid.value).mp hsome
  | system =>
    obtain ⟨id, host, hhost, _, hstocks⟩ := h.stocks.1.host
    rw [← mem_map_value, ← hstocks mid.value]
    constructor
    · rintro ⟨host', hhost', hsome⟩
      cases Option.some.inj (hhost.symm.trans hhost')
      exact ⟨rfl, hsome⟩
    · exact fun hsome => ⟨host, hhost, hsome.2⟩

/-- A frame in video memory is asked of the textures. -/
theorem Furnished.handle_eq (h : a.Furnished .video response) :
    ∃ store : TextureFrames, store.Stocks response.mids (handles a) ∧
      ∀ mid ∈ response.mids, a.handle mid = store.handle mid := by
  obtain ⟨id, t, ht, _, hstocks⟩ := h.stocks.textures
  refine ⟨t.store, hstocks, fun mid hm => ?_⟩
  change MixedFrames.ask mid a.store _ _ = _
  unfold MixedFrames.ask
  rw [h.stocks.origins mid hm, ht]
  rfl

theorem Furnished.exists_handle (h : a.Furnished .video response) {mid : MemId}
    (hm : mid ∈ response.mids) :
    ∃ x, a.handle mid = .ok x ∧ x.texture ∈ handles a := by
  obtain ⟨store, hstocks, heq⟩ := h.handle_eq
  obtain ⟨texture, htexture, hhandle⟩ := hstocks.handle hm
  exact ⟨_, (heq mid hm).trans hhandle, List.mem_of_getElem? htexture⟩

theorem Furnished.handle_injective (h : a.Furnished .video response) (hn : (handles a).Nodup)
    {mid mid' : MemId} (hm : mid ∈ response.mids) (hm' : mid' ∈ response.mids)
    (heq : a.handle mid = a.handle mid') : mid = mid' := by
  obtain ⟨store, hstocks, hsame⟩ := h.handle_eq
  rw [hsame mid hm, hsame mid' hm'] at heq
  exact hstocks.handle_injective hn hm hm' heq

/-- Freeing the response and closing the allocator releases its textures, and leaves nothing. -/
theorem Furnished.freed (h : a.Furnished memory response) (p : Platform) :
    Vacant ((a.free response p).2.1.close (a.free response p).2.2).2.1 ∧
      ((a.free response p).2.1.close (a.free response p).2.2).2.2 =
        p.releaseTextures a.handles := by
  obtain ⟨a', hfree, hstore, hheld⟩ :=
    Allocator.free_held h.held (Response.matches_of_mids h.present rfl) p
  obtain ⟨s', hrelease, hvacant⟩ := h.stocks.release h.present p
  have hrelease : FrameStore.release response.mids a.store p = _ := hrelease
  rw [hrelease] at hfree hstore
  rw [hfree]
  dsimp only at hstore ⊢
  obtain ⟨hclosed, hplatform, _⟩ := Allocator.close_held hheld (p.releaseTextures a.handles)
  rw [← hstore] at hvacant
  have hrest := hvacant.close (p.releaseTextures a.handles)
  rw [hclosed, hplatform]
  exact ⟨⟨rfl, hrest.1⟩, hrest.2⟩

/-- The same responses are held, and the frames are the same but for what is written in them. -/
structure Alike (a a' : MixedAllocator) : Prop where
  held : a'.held = a.held
  store : MixedFrames.Alike a.store a'.store

theorem fill_alike (mid : MemId) (start stop : Nat) (value : UInt8) (a : MixedAllocator) :
    Yields (a.fill mid start stop value) (Alike a) :=
  (MixedFrames.fill_alike mid start stop value a.store).bind fun _ hs => .pure ⟨rfl, hs⟩

theorem Alike.furnished (h : Alike a a') (ha : a.Furnished memory response) :
    a'.Furnished memory response where
  held := h.held.trans ha.held
  present := ha.present
  stocks := by
    have hhandles : a'.handles = a.handles := h.store.handles
    rw [hhandles]
    exact h.store.stocks _ _ _ ha.stocks

theorem Alike.vacant (h : Alike a a') (ha : a.Vacant) : a'.Vacant where
  held := h.held.trans ha.held
  store := h.store.vacant ha.store

end MixedAllocator

end Multiview
