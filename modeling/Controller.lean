import Controller.Lib.PartialRun
import Controller.Lib.Abort
import Controller.Lib.Numerals
import Controller.Lib.BufferStore
import Controller.Lib.Rodrigues
import Controller.Lib.Utf8
import Controller.Lib.SampleHold
import Controller.Lib.JavaString
import Controller.Lib.LatestSlot
import Controller.Lib.Triangles
import Controller.Lib.Binary32
import Controller.Native.State
import Controller.Native.PointTracker
import Controller.Native.NativeLib
import Controller.Native.Refinement
import Controller.Native.Reference
import Controller.Native.Coherence
import Controller.Native.FreshSession
import Controller.Native.ReadOuts
import Controller.Native.PointOrder
import Controller.Native.Noise
import Controller.Native.Similarity
import Controller.Native.Replay
import Controller.Native.DrawnAxis
import Controller.Native.TfliteObj
import Controller.App.MyGLRenderer
import Controller.App.MainActivity
import Controller.App.ControllerRvec
import Controller.App.ExportedPose
import Controller.App.Cube
import Controller.App.ModelLoading
import Controller.App.TouchGesture
import Controller.App.AssetCopy
import Controller.App.MySensor
import Controller.App.Settling
import Controller.App.SensorSums
import Controller.App.SensorTraffic
import Controller.App.FilterDefined
import Controller.App.TimeSteps
import Controller.App.Directions
import Controller.App.DeviceList
import Controller.Bluetooth.Service
import Controller.Bluetooth.Rules
import Controller.Bluetooth.Connected
import Controller.Bluetooth.Distinct
import Controller.Bluetooth.Throws
import Controller.Bluetooth.Ownership
import Controller.Bluetooth.Listening
import Controller.Bluetooth.SendPaths
import Controller.Bluetooth.Superseded
import Controller.Bluetooth.Undisturbed
import Controller.Bluetooth.Reader
import Controller.Bluetooth.Peer
import Controller.Camera.JavaCameraView
import Controller.Camera.Callbacks
import Controller.Camera.FrameChain
import Controller.Camera.Progress
import Controller.Camera.FrameSize
import Controller.Camera.DrawFrame
import Controller.Camera.AsyncServiceHelper
import Controller.Camera.Answers
import Controller.Camera.LoaderSafety
import Controller.App.PermissionSupport
import Controller.App.FileCopyTask
import Controller.App.CopyProgress
import Controller.App.CopiedAssets
