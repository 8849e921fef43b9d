import Inventory.Source.TagFilter

/-! # Series of records

The records of a tenant stand in series, each with an id and tags of its own, the newest record first.
`ChunkSource` is what a reader may ask; `SeriesStore` keeps series in the order in which they first came.
-/

namespace Inventory

structure SeriesInfo where
  id : String
  tags : Tags
deriving DecidableEq

structure ChunkSource where
  tenants : Except Error (List String)
  /-- The series of a tenant whose tags meet a filter. -/
  findSeries : String → TagFilter → Except Error (List SeriesInfo)
  /-- The records of a series of a tenant, the newest first. -/
  fetchChunks : String → String → Except Error (List ChunkRecord)

structure Series where
  id : String
  tags : Tags
  records : List ChunkRecord
deriving DecidableEq

namespace Series

def info (s : Series) : SeriesInfo := ⟨s.id, s.tags⟩

/-- The records in descending order of their time stamps; of equal ones the earlier stays first. -/
def newestFirst (records : List ChunkRecord) : List ChunkRecord :=
  records.mergeSort fun a b => b.timestamp ≤ a.timestamp

def push (s : Series) (records : List ChunkRecord) : Series :=
  { s with records := newestFirst (s.records ++ records) }

/-- Changes the series with an id, which is made if there is none. -/
def update (id : String) (f : Series → Series) : List Series → List Series
  | [] => [f ⟨id, .empty, []⟩]
  | s :: rest => if s.id = id then f s :: rest else s :: update id f rest

end Series

structure SeriesStore where
  tenants : SortedMap (List Series)
deriving DecidableEq

namespace SeriesStore

def empty : SeriesStore := ⟨.empty⟩

def seriesOf (store : SeriesStore) (tenant : String) : List Series :=
  (store.tenants.get? tenant).getD []

def update (store : SeriesStore) (tenant id : String) (f : Series → Series) : SeriesStore :=
  ⟨store.tenants.alter tenant fun series => Series.update id f (series.getD [])⟩

def addSeries (store : SeriesStore) (tenant : String) (info : SeriesInfo) : SeriesStore :=
  store.update tenant info.id fun s => { s with tags := info.tags }

def pushRecords (store : SeriesStore) (tenant id : String) (records : List ChunkRecord) :
    SeriesStore :=
  store.update tenant id (·.push records)

def findSeries (store : SeriesStore) (tenant : String) (filter : TagFilter) : List SeriesInfo :=
  ((store.seriesOf tenant).filter (filter.holds ·.tags)).map Series.info

def fetchChunks (store : SeriesStore) (tenant id : String) : List ChunkRecord :=
  (((store.seriesOf tenant).find? (·.id == id)).map (·.records)).getD []

def source (store : SeriesStore) : ChunkSource where
  tenants := .ok store.tenants.keys
  findSeries tenant filter := .ok (store.findSeries tenant filter)
  fetchChunks tenant id := .ok (store.fetchChunks tenant id)

end SeriesStore

end Inventory
