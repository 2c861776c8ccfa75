import SceneAssembly.Document.Encoding
import SceneAssembly.Main
import SceneAssembly.Proofs.Shapes.WellFormed
import SceneAssembly.Proofs.Shapes.TriangleTexture
import SceneAssembly.Proofs.Shapes.TrackSections
import SceneAssembly.Proofs.Shapes.Poles
import SceneAssembly.Proofs.Walk.Cycles
import SceneAssembly.Proofs.Walk.Clean
import SceneAssembly.Proofs.Walk.Placing
import SceneAssembly.Proofs.Walk.Closure
import SceneAssembly.Proofs.Walk.Sharing
import SceneAssembly.Proofs.Walk.Siblings
import SceneAssembly.Proofs.Walk.MissingNames
import SceneAssembly.Proofs.Tags
import SceneAssembly.Proofs.Textures.Runs
import SceneAssembly.Proofs.Textures.Slots
import SceneAssembly.Proofs.ModelRuns
import SceneAssembly.Proofs.Comparison
import SceneAssembly.Proofs.LevelsOfDetail
import SceneAssembly.Proofs.Walk.Layers
import SceneAssembly.Proofs.SceneBounds
import SceneAssembly.Proofs.Placements
import SceneAssembly.Proofs.Textures.Turning
import SceneAssembly.Proofs.Shapes.TrackRings
import SceneAssembly.Proofs.Shapes.Patches
import SceneAssembly.Proofs.Materials.Compiling
import SceneAssembly.Proofs.Walk.Rehanging
import SceneAssembly.Proofs.Shapes.CurveSampling
import SceneAssembly.Proofs.Shapes.GridTriangles
import SceneAssembly.Proofs.Shapes.Winding
import SceneAssembly.Proofs.Shapes.Centred
import SceneAssembly.Proofs.Unions
import SceneAssembly.Proofs.Search
import SceneAssembly.Proofs.Shapes.GridSurface
import SceneAssembly.Proofs.Shapes.Slopes
import SceneAssembly.Proofs.Shapes.TrackFrames
