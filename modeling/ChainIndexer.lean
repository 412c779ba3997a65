import ChainIndexer.Storer2Elastic.Block
import ChainIndexer.Storer2Elastic.UniqueMiniBlocks
import ChainIndexer.Storer2Elastic.DataProcessor
import ChainIndexer.Storer2Elastic.ValidatorsForEpoch
import ChainIndexer.Storer2Elastic.IndexData
import ChainIndexer.Storer2Elastic.NewDataProcessor
import ChainIndexer.Storer2Elastic.ProcessData
import ChainIndexer.Storer2Elastic.Replay
import ChainIndexer.Storer2Elastic.Indexer
import ChainIndexer.Outport.HostDriver
import ChainIndexer.Outport.Interleaving
import ChainIndexer.Storage.Base64
import ChainIndexer.Storage.StorerMock
import ChainIndexer.Storage.ChainStorerMock
import ChainIndexer.IntegrationTests.IntermediateTransactionHandlerMock
