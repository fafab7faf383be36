import WindsAloft.Document.Layout
import WindsAloft.Estimate
import WindsAloft.Json.Value
import WindsAloft.Store

/-!
# Winds, samples, estimates and store snapshots in documents

Each type has a layout, by which it is read, and a JSON form, in which it is
written.  Both list the same members in the same order.
-/

namespace WindsAloft

namespace Wind

def layout : Layout Wind where
  title := "struct WindVector"
  part := Wind.mk <$> .required "x" .real <*> .required "y" .real

def toJson (wind : Wind) : Json :=
  .object [("x", .real wind.x), ("y", .real wind.y)]

end Wind

namespace Sample

def layout : Layout Sample where
  title := "struct WindSample"
  part :=
    Sample.mk
      <$> .required "vector" Wind.layout.read
      <*> .required "quality" .int32
      <*> .required "time" .real
      <*> .required "altitude" .real

def toJson (sample : Sample) : Json :=
  .object
    [ ("vector", sample.wind.toJson)
    , ("quality", .integer sample.quality.toInt)
    , ("time", .real sample.time)
    , ("altitude", .real sample.altitude) ]

end Sample

namespace Estimate

def layout : Layout Estimate where
  title := "struct WindEstimate"
  part :=
    Estimate.mk
      <$> .required "vector" Wind.layout.read
      <*> .required "found" .bool
      <*> .required "total_weight" .int64
      <*> .required "contributors" (.count "usize")

def toJson (estimate : Estimate) : Json :=
  .object
    [ ("vector", estimate.wind.toJson)
    , ("found", .bool estimate.found)
    , ("total_weight", .integer estimate.totalWeight.toInt)
    , ("contributors", .integer estimate.contributors) ]

end Estimate

namespace Store.Status

def layout : Layout Status where
  title := "struct StoreStats"
  part :=
    Status.mk
      <$> .required "len" (.count "usize")
      <*> .required "capacity" (.count "usize")
      <*> .required "inserted" (.count "u64")
      <*> .required "evicted" (.count "u64")
      <*> .optional "oldest_time" .real
      <*> .optional "newest_time" .real

def toJson (status : Status) : Json :=
  .object
    [ ("len", .integer status.size)
    , ("capacity", .integer status.capacity)
    , ("inserted", .integer status.inserted)
    , ("evicted", .integer status.evicted)
    , ("oldest_time", .ofOption .real status.oldestTime)
    , ("newest_time", .ofOption .real status.newestTime) ]

end Store.Status
end WindsAloft
