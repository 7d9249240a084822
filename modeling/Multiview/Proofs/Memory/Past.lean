import Multiview.Proofs.Pool.Lookup

/-!
The journal is written and never read. Whatever calls came before, allocators, pools and pictures do the
same, and the calls that they make are recorded in front of the earlier ones.
-/

namespace Multiview

namespace Platform

/-- The same platform with other calls before those in its journal. -/
def after (past : List Event) (p : Platform) : Platform := { p with journal := p.journal ++ past }

variable (past : List Event) (p : Platform)

theorem createTexture_after (desc : TextureDesc) :
    (p.after past).createTexture desc = (p.createTexture desc).map id (after past) := by
  obtain ⟨device, journal, memory⟩ := p
  cases device <;> rfl

theorem releaseTextures_after (textures : List TextureHandle) :
    (p.after past).releaseTextures textures = (p.releaseTextures textures).after past := by
  unfold releaseTextures
  induction textures generalizing p with
  | nil => rfl
  | cons texture textures ih => exact ih (p.releaseTexture texture)

theorem createTextures_after (desc : TextureDesc) (n : Nat) (made : List TextureHandle) :
    createTextures desc n made (p.after past) =
      (createTextures desc n made p).map id (after past) := by
  induction n generalizing made p with
  | zero => rfl
  | succ n ih =>
    unfold createTextures
    rw [createTexture_after]
    obtain ⟨answer, q⟩ := p.createTexture desc
    cases answer with
    | none => exact congrArg (Prod.mk none) (releaseTextures_after past q made.reverse)
    | some texture => exact ih q (texture :: made)

end Platform

open Platform

/-- Both a store and the platform after a call. -/
abbrev Called (α β : Type) : Type := α × β × Platform

/-- The outcome of a call, with other calls before it. -/
def Called.after {α β : Type} (past : List Event) (x : Called α β) : Called α β :=
  (x.1, x.2.1, x.2.2.after past)

/-- A store of frames to which earlier calls are all the same. -/
structure Forgetful (β : Type) [FrameStore β] : Prop where
  allocate : ∀ (past : List Event) (r : Request) (s : β) (p : Platform),
    FrameStore.allocate r s (p.after past) = Called.after past <$> FrameStore.allocate r s p
  release : ∀ (past : List Event) (mids : List MemId) (s : β) (p : Platform),
    FrameStore.release mids s (p.after past) = Called.after past (FrameStore.release mids s p)
  close : ∀ (past : List Event) (s : β) (p : Platform),
    FrameStore.close s (p.after past) = Called.after past (FrameStore.close s p)

namespace Allocator

variable {β : Type} (past : List Event) (p : Platform)

theorem takeOver_after (r : Request) (a : Allocator β)
    (x : Called (Except AllocError (List MemId)) β) :
    takeOver r a (x.after past) = Called.after past (takeOver r a x) := by
  obtain ⟨answer, store, q⟩ := x
  cases answer with
  | error e => rfl
  | ok mids =>
    unfold takeOver Called.after
    dsimp only
    split
    · rfl
    · rfl

variable [FrameStore β]

theorem allocateNew_after (hf : Forgetful β) (r : Request) (a : Allocator β) :
    a.allocateNew r (p.after past) = Called.after past <$> a.allocateNew r p := by
  rw [allocateNew_eq, allocateNew_eq, hf.allocate]
  cases FrameStore.allocate r a.store p with
  | error fault => rfl
  | ok x => exact congrArg Except.ok (takeOver_after past r a x)

theorem allocate_after (hf : Forgetful β) (r : Request) (a : Allocator β) :
    a.allocate r (p.after past) = Called.after past <$> a.allocate r p := by
  unfold allocate
  split
  · rfl
  · split
    · rfl
    · split
      · split <;> rfl
      · exact allocateNew_after past p hf r a

theorem free_after (hf : Forgetful β) (given : Response) (a : Allocator β) :
    a.free given (p.after past) = Called.after past (a.free given p) := by
  unfold free
  split
  · rw [hf.release]
    rfl
  · split
    · rw [hf.release]
      rfl
    · rfl

theorem releaseAll_after (hf : Forgetful β) (responses : List Response)
    (answer : Except AllocError Unit) (s : β) :
    releaseAll responses answer s (p.after past) =
      Called.after past (releaseAll responses answer s p) := by
  induction responses generalizing answer s p with
  | nil => rfl
  | cons r rest ih =>
    unfold releaseAll
    rw [hf.release]
    obtain ⟨released, store, q⟩ := FrameStore.release r.mids s p
    cases released with
    | error e => exact ih q (.error e) store
    | ok u => exact ih q answer store

theorem close_after (hf : Forgetful β) (a : Allocator β) :
    a.close (p.after past) = Called.after past (a.close p) := by
  unfold close
  rw [releaseAll_after past p hf]
  obtain ⟨released, store, q⟩ := releaseAll (a.external ++ a.oneShot) (.ok ()) a.store p
  dsimp only [Called.after]
  rw [hf.close]
  rfl

end Allocator

theorem HostFrames.takeFrames_after (past : List Event) (p : Platform) (layout : HostLayout)
    (size n : Nat) (made : List MemId) (s : HostFrames) :
    takeFrames layout size n made s (p.after past) =
      Called.after past (takeFrames layout size n made s p) := by
  induction n generalizing made s p with
  | zero => rfl
  | succ n ih =>
    by_cases h : p.memory.Grants size 0
    · have hlater : (p.after past).memory.Grants size 0 := h
      rw [takeFrames, takeFrames, allocateBuffer_granted h, allocateBuffer_granted hlater]
      exact ih (p.asked 1) ..
    · have hlater : ¬ (p.after past).memory.Grants size 0 := h
      rw [takeFrames, takeFrames, allocateBuffer_refused h, allocateBuffer_refused hlater]
      rfl

theorem forgetful_host : Forgetful HostFrames where
  allocate past r s p := by
    change s.allocate r (p.after past) = Called.after past <$> s.allocate r p
    unfold HostFrames.allocate
    split
    · rfl
    · dsimp only
      cases below wordLimit (HostLayout.ofInfo r.info).size with
      | error fault => rfl
      | ok size => exact congrArg Except.ok (HostFrames.takeFrames_after past p ..)
  release _ _ _ _ := rfl
  close _ _ _ := rfl

theorem forgetful_textures : Forgetful TextureFrames where
  allocate past r s p := by
    refine congrArg Except.ok ?_
    unfold TextureFrames.allocate
    cases s.settings with
    | none => rfl
    | some settings =>
      dsimp only
      split
      · rfl
      · rw [createTextures_after]
        generalize createTextures _ _ [] p = x
        obtain ⟨_ | textures, q⟩ := x <;> rfl
  release past mids s p := by
    change s.release mids (p.after past) = Called.after past (s.release mids p)
    unfold TextureFrames.release
    split
    · rfl
    · split
      · rfl
      · rw [releaseTextures_after]
        rfl
  close past s p := by
    change (_, _, (TextureFrames.close s (p.after past)).2) = _
    unfold TextureFrames.close
    dsimp only
    rw [releaseTextures_after]
    rfl

namespace MixedFrames

variable (past : List Event) (p : Platform)

theorem allocate_after (r : Request) (s : MixedFrames) :
    s.allocate r (p.after past) = Called.after past <$> s.allocate r p := by
  unfold allocate
  split
  · rename_i textures _
    rw [Allocator.allocate_after past p forgetful_textures]
    cases textures.allocate r p with
    | error fault => rfl
    | ok x =>
      obtain ⟨answer, textures, q⟩ := x
      cases answer <;> rfl
  · cases s.host with
    | none => rfl
    | some host =>
      dsimp only
      rw [Allocator.allocate_after past p forgetful_host]
      cases host.allocate r p with
      | error fault => rfl
      | ok x =>
        obtain ⟨answer, host, q⟩ := x
        cases answer <;> rfl

theorem release_after (mids : List MemId) (s : MixedFrames) :
    s.release mids (p.after past) = Called.after past (s.release mids p) := by
  unfold release
  cases mids with
  | nil => rfl
  | cons first rest =>
    dsimp only
    split
    · cases s.textures with
      | none => rfl
      | some textures =>
        dsimp only
        rw [Allocator.free_after past p forgetful_textures]
        obtain ⟨answer, textures, q⟩ := textures.free ⟨0, first :: rest⟩ p
        cases answer <;> rfl
    · cases s.host with
      | none => rfl
      | some host =>
        dsimp only
        rw [Allocator.free_after past p forgetful_host]
        obtain ⟨answer, host, q⟩ := host.free ⟨0, first :: rest⟩ p
        cases answer <;> rfl

theorem closeTextures_after (s : MixedFrames) :
    s.closeTextures (p.after past) = Called.after past (s.closeTextures p) := by
  unfold closeTextures
  cases s.textures with
  | none => rfl
  | some textures =>
    dsimp only
    rw [Allocator.close_after past p forgetful_textures]
    rfl

theorem closeHost_after (s : MixedFrames) :
    s.closeHost (p.after past) = Called.after past (s.closeHost p) := by
  unfold closeHost
  cases s.host with
  | none => rfl
  | some host =>
    dsimp only
    rw [Allocator.close_after past p forgetful_host]
    rfl

theorem close_after (s : MixedFrames) :
    s.close (p.after past) = Called.after past (s.close p) := by
  unfold close
  rw [closeTextures_after]
  obtain ⟨answer, t, q⟩ := s.closeTextures p
  cases answer with
  | error e => rfl
  | ok u =>
    dsimp only [Called.after]
    rw [closeHost_after]
    obtain ⟨answer, t, q⟩ := t.closeHost q
    cases answer <;> rfl

end MixedFrames

theorem forgetful_mixed : Forgetful MixedFrames where
  allocate past r s p := s.allocate_after past p r
  release past mids s p := s.release_after past p mids
  close past s p := s.close_after past p

namespace Pools

/-- The same pools with other calls before those in the journal. -/
def after (past : List Event) (s : Pools) : Pools := { s with platform := s.platform.after past }

variable (past : List Event) (s : Pools)

theorem supply_after (pool : PoolId) (info : FrameInfo) (memory : MemoryKind)
    (settings : Option TextureSettings) (request : Request) :
    (s.after past).supply pool info memory settings request =
      Prod.map id (after past) <$> s.supply pool info memory settings request := by
  unfold supply
  have hallocate := Allocator.allocate_after past s.platform forgetful_mixed request
    (MixedAllocator.empty.init settings)
  change Allocator.allocate request _ (s.platform.after past) >>= _ = _
  rw [hallocate]
  cases Allocator.allocate request (MixedAllocator.empty.init settings) s.platform with
  | error fault => rfl
  | ok x =>
    obtain ⟨answer, a, platform⟩ := x
    cases answer <;> rfl

theorem freeFrames_after (id : PoolId) :
    (s.after past).freeFrames id = (s.freeFrames id).after past := by
  cases hframes : (s.pool id).frames with
  | none =>
    have hframes' : ((s.after past).pool id).frames = none := hframes
    simp only [freeFrames, hframes, hframes']
  | some frames =>
    have hframes' : ((s.after past).pool id).frames = some frames := hframes
    simp only [freeFrames, hframes, hframes']
    generalize hf : (fun p : Pool => { p with frames := none }) = f
    have hlater : (modifyPool id f (s.after past)).platform = s.platform.after past := rfl
    have hearlier : (modifyPool id f s).platform = s.platform := rfl
    have hresources : (modifyPool id f (s.after past)).resources = (modifyPool id f s).resources :=
      rfl
    rw [hlater, hearlier, hresources]
    cases (modifyPool id f s).resources.allocators[frames.allocator]? with
    | none => rfl
    | some a =>
      dsimp only
      rw [Allocator.free_after past s.platform forgetful_mixed]
      generalize Allocator.free frames.response a s.platform = x
      obtain ⟨answer, a, platform⟩ := x
      dsimp only [Called.after]
      rw [Allocator.close_after past platform forgetful_mixed]
      rfl

theorem settle_after (id : PoolId) : (s.after past).settle id = (s.settle id).after past := by
  unfold settle
  change (if s.isUsed id then s.after past else (s.after past).freeFrames id) = _
  rw [freeFrames_after]
  split <;> rfl

theorem disown_after (id : PoolId) : (s.after past).disown id = (s.disown id).after past :=
  settle_after past (s.modifyPool id fun p => { p with owned := false }) id

theorem drop_after (id : PictureId) : (s.after past).drop id = (s.drop id).after past := by
  have hpictures : (s.after past).pictures = s.pictures := rfl
  unfold drop
  rw [hpictures]
  cases s.pictures[id]? with
  | none => rfl
  | some picture =>
    dsimp only
    cases picture.references with
    | zero => rfl
    | succ n =>
      dsimp only
      split
      · exact settle_after past
          ((release picture.pool picture.base.index { s with
            pictures := s.pictures.set id { picture with references := n } }).release picture.pool
              picture.extra.index) picture.pool
      · rfl

theorem dropAll_after (ids : List PictureId) :
    (s.after past).dropAll ids = (s.dropAll ids).after past := by
  unfold dropAll
  induction ids generalizing s with
  | nil => rfl
  | cons id ids ih =>
    rw [List.foldl_cons, List.foldl_cons, drop_after]
    exact ih (s.drop id)

end Pools

end Multiview
